import EosPayg.RateLimit
import EosPayg.Startup
import EosPayg.Lifecycle

/-!
# The published end of the rate limit

Both the end time and the limiter's decision depend on the oldest attempt kept,
but not in the same way: the end time is half an hour after it, or zero while
the ring is not full, and the limiter asks whether it lies in a window that
includes its first second, and that wraps around in the first half hour after
boot.
-/

set_option autoImplicit false

namespace EosPayg.RateLimitEnd
open EosPayg.WordArithmetic EosPayg.PaygCodes EosPayg.ManagerState EosPayg.ManagerCode
  EosPayg.ManagerFiles EosPayg.SaveQueue EosPayg.Lifecycle EosPayg.GuardedRun EosPayg.RateLimit
open EosPayg.Shutdown (internalSaveStateCb shutdownAsync)
open EosPayg.Startup (loadNow saveNow)

def oldest (r : RateLimiting) : UInt64 := r.history.getLastD 0

def endOf (oldestSecs : UInt64) : UInt64 :=
  if oldestSecs > 0 then oldestSecs+rateLimitingTimePeriodSecs else 0

/-- The attempts are kept newest first, none is in the future, and the end time
is that of the oldest. -/
structure Kept (r : RateLimiting) (nowSecs : UInt64) : Prop where
  endTime : r.endTimeSecs = endOf (oldest r)
  sorted : r.history.Pairwise (fun s u => u ≤ s)
  past : ∀ s ∈ r.history, s ≤ nowSecs

theorem noAttempts_kept (nowSecs : UInt64) : Kept noAttempts nowSecs := by
  refine ⟨by decide,by decide,?_⟩
  intro s hs
  rw [List.eq_of_mem_replicate hs]
  exact UInt64.zero_le

theorem later_kept {r : RateLimiting} {nowSecs laterSecs : UInt64} (h : Kept r nowSecs)
    (hle : nowSecs ≤ laterSecs) : Kept r laterSecs :=
  ⟨h.endTime,h.sorted,fun s hs => UInt64.le_trans (h.past s hs) hle⟩

theorem pushAttempt_kept {r : RateLimiting} {nowSecs : UInt64} (h : Kept r nowSecs) :
    Kept (pushAttempt r nowSecs) nowSecs := by
  have htake : ∀ s ∈ r.history.take (rateLimitingNAttempts-1), s ≤ nowSecs :=
    fun s hs => h.past s (List.mem_of_mem_take hs)
  constructor
  · rfl
  · exact List.pairwise_cons.mpr ⟨htake,h.sorted.sublist (List.take_sublist _ _)⟩
  · exact List.forall_mem_cons.mpr ⟨UInt64.le_refl _,htake⟩

theorem addCode_kept (hmac : Hmac) (self : EpgManager) (clock : EpgClock) (s : List UInt8)
    (h : Kept self.rateLimiting clock.time) :
    Kept (addCode hmac self clock s).2.1.rateLimiting clock.time := by
  cases ha : acceptedCode hmac self clock s with
  | some used =>
    rw [addCode_accepted_state hmac self clock s used ha]
    exact noAttempts_kept _
  | none =>
    rw [(addCode_refused hmac self clock s ha).2]
    split_ifs
    · exact pushAttempt_kept h
    · exact h

theorem clearCode_rateLimiting (self : EpgManager) (clock : EpgClock) :
    (clearCode self clock).2.1.rateLimiting = self.rateLimiting := by
  rcases clearCode_cases self clock with ⟨he,hn⟩ | h
  · rw [clearCode_state self clock he hn]
  · rw [h]

theorem wallclockTimeChanged_rateLimiting (self : EpgManager) (clock : EpgClock)
    (delta : Int64) : (wallclockTimeChanged self clock delta).1.rateLimiting =
      self.rateLimiting := by
  rw [wallclockTimeChanged_state]
  split_ifs <;> rfl

theorem deduceExpiryTime_rateLimiting (self : EpgManager) (clock : EpgClock)
    (file : StateFile) : (deduceExpiryTime self clock file).1.rateLimiting =
      self.rateLimiting := by
  unfold deduceExpiryTime
  split
  · split_ifs
    · rw [setExpiryTime_state]
    · rfl
  · rfl

theorem loadFile_rateLimiting (self : EpgManager) (clock : EpgClock) (file : StateFile)
    (data : Option (List UInt8)) :
    (loadFile self clock file data).2.1.rateLimiting = self.rateLimiting := by
  cases file with
  | clockTime =>
    simp only [loadFile,loadWallclockTime]
    split_ifs <;> rfl
  | expiryTime =>
    simp only [loadFile,loadExpiryTime]
    split_ifs
    · rw [setExpiryTime_state]
    · rfl
    · rw [andThen_state,setExpiryTime_state]
    · rw [andThen_state,setExpiryTime_state]
  | expirySeconds =>
    simp only [loadFile,loadExpirySeconds]
    split_ifs
    · rw [setExpiryTime_state]
    · rfl
    · rfl
  | usedCodes =>
    simp only [loadFile,loadUsedCodes]
    split <;> rfl
  | key => cases data <;> rfl
  | accountId => cases data <;> rfl

theorem fileLoadCb_rateLimiting (self : EpgManager) (clock : EpgClock) (hadError : Bool)
    (file : StateFile) (result : LoadResult) :
    (fileLoadCb self clock hadError file result).1.rateLimiting = self.rateLimiting := by
  have hupdate (data : Option (List UInt8)) :
      (updateFromFile self clock file data).1.rateLimiting = self.rateLimiting := by
    have hl := loadFile_rateLimiting self clock file data
    unfold updateFromFile
    by_cases hok : (loadFile self clock file data).1 = true
    · simp only [if_pos hok,andThen_state]
      rw [deduceExpiryTime_rateLimiting,hl]
    · simp only [if_neg hok]
      exact hl
  unfold fileLoadCb
  split_ifs
  · rfl
  · cases result with
    | contents data => exact hupdate (some data)
    | failed error =>
      by_cases he : error = .notFound
      · simp only [if_pos he]
        exact hupdate none
      · simp only [if_neg he]

theorem internalSaveStateCb_rateLimiting (self : EpgManager) (result : Except GIOError Unit) :
    (internalSaveStateCb self result).1.rateLimiting = self.rateLimiting := by
  unfold internalSaveStateCb
  split_ifs
  · dsimp only
    split_ifs <;> rfl
  · rfl

structure Unattempted (s s' : Initialisation.System) : Prop where
  rateLimiting : s'.manager.rateLimiting = s.manager.rateLimiting
  clock : s.clock.time ≤ s'.clock.time

theorem performed_unattempted (s s' : Initialisation.System) (effects : List Effect)
    (hm : s'.manager.rateLimiting = s.manager.rateLimiting) (hc : s'.clock = s.clock) :
    Unattempted s (Initialisation.performAll s' effects) := by
  constructor
  · rw [(Initialisation.performAll_extends effects s').manager,hm]
  · rw [(performAll_saves effects s').2,hc]
    exact UInt64.le_refl _

theorem core_unattempted {s s' : Initialisation.System} {op : Initialisation.Operation}
    (hs : Initialisation.step s op = some s') : Unattempted s s' := by
  cases Initialisation.step_cases s s' op hs with
  | timePasses clock h => exact ⟨rfl,h⟩
  | loadCb i l result hi hl =>
    exact performed_unattempted s _ _ (fileLoadCb_rateLimiting _ _ _ _ _) rfl
  | deleteCb i d error hi hd => exact performed_unattempted s _ _ rfl rfl
  | saveCb i sv result hi hresult hr =>
    exact performed_unattempted s _ _ (internalSaveStateCb_rateLimiting _ _) rfl
  | _ => exact ⟨rfl,UInt64.le_refl _⟩

theorem startShutdown_unattempted (s : System) : Unattempted s.core (startShutdown s).core := by
  unfold startShutdown shutdownAsync
  by_cases hc : s.core.manager.cancelled = true
  · simp only [if_pos hc]
    exact ⟨rfl,UInt64.le_refl _⟩
  · by_cases hp : s.core.manager.pendingInternalSaveStateCalls = 0
    · simp only [if_neg hc,if_pos hp]
      exact ⟨rfl,UInt64.le_refl _⟩
    · simp only [if_neg hc,if_neg hp]
      exact ⟨rfl,UInt64.le_refl _⟩

theorem report_unattempted (s : System) (i : ℕ) (sv : Save) (result : Except GIOError Unit) :
    Unattempted s.core (report s i sv result).core := by
  unfold report
  split_ifs
  · exact ⟨rfl,UInt64.le_refl _⟩
  · exact performed_unattempted s.core _ _ (internalSaveStateCb_rateLimiting _ _) rfl

def History (s : System) : Prop := Kept s.core.manager.rateLimiting s.core.clock.time

theorem unattempted_history {s s' : System} (h : History s) (hu : Unattempted s.core s'.core) :
    History s' := by
  rw [History,hu.rateLimiting]
  exact later_kept h hu.clock

theorem step_history (hmac : Hmac) (s : System) (op : Operation) (s' : System) (h : History s)
    (hs : step hmac s op = some s') : History s' := by
  cases op with
  | addCode codeStr =>
    cases hs
    have hm := (Initialisation.performAll_extends
      (addCode hmac s.core.manager s.core.clock codeStr).2.2
      { s.core with manager := (addCode hmac s.core.manager s.core.clock codeStr).2.1 }).manager
    have hc := (performAll_saves (addCode hmac s.core.manager s.core.clock codeStr).2.2
      { s.core with manager := (addCode hmac s.core.manager s.core.clock codeStr).2.1 }).2
    rw [History,serve,hm,hc]
    exact addCode_kept hmac s.core.manager s.core.clock codeStr h
  | clearCode =>
    cases hs
    exact unattempted_history h
      (performed_unattempted s.core _ _ (clearCode_rateLimiting _ _) rfl)
  | wallclockTimeChanged delta =>
    cases hs
    exact unattempted_history h
      (performed_unattempted s.core _ _ (wallclockTimeChanged_rateLimiting _ _ delta) rfl)
  | checkExpired =>
    cases hs
    exact unattempted_history h (performed_unattempted s.core _ _ rfl rfl)
  | shutdown =>
    cases hs
    exact unattempted_history h (startShutdown_unattempted s)
  | core op =>
    rcases core_cases hs with ⟨i,sv,result,-,-,-,-,rfl⟩ | ⟨-,core,hcore,rfl⟩
    · exact unattempted_history h (report_unattempted s i sv result)
    · exact unattempted_history h (core_unattempted hcore)

theorem run_history (hmac : Hmac) (enabled : Bool) (clock : EpgClock) (files : Directory)
    (ops : List Operation) (s : System)
    (hr : run (step hmac) ops (constructed enabled clock files) = some s) : History s :=
  run_invariant (step_history hmac) (show History (constructed enabled clock files) from
    noAttempts_kept clock.time) hr

theorem oldest_split (r : RateLimiting) : ∃ newer, r.history = newer++[oldest r] := by
  rcases List.eq_nil_or_concat' r.history with hnil | ⟨newer,last,hlast⟩
  · have hfull := r.full
    rw [hnil] at hfull
    cases hfull
  · use newer
    rw [oldest,hlast,List.getLastD_concat]

theorem oldest_mem (r : RateLimiting) : oldest r ∈ r.history := by
  obtain ⟨newer,h⟩ := oldest_split r
  rw [h]
  simp

theorem newest_mem (r : RateLimiting) : r.history.headD 0 ∈ r.history := by
  cases h : r.history with
  | nil =>
    have hfull := r.full
    rw [h] at hfull
    cases hfull
  | cons newest older => exact List.mem_cons_self

theorem oldest_le {r : RateLimiting} (hs : r.history.Pairwise (fun s u => u ≤ s)) :
    ∀ s ∈ r.history, oldest r ≤ s := by
  obtain ⟨newer,h⟩ := oldest_split r
  rw [h,List.pairwise_append] at hs
  intro s hm
  rw [h,List.mem_append,List.mem_singleton] at hm
  rcases hm with hm | rfl
  · exact hs.2.2 s hm _ (List.mem_singleton_self _)
  · exact UInt64.le_refl _

theorem limited_iff_oldest {r : RateLimiting} (hs : r.history.Pairwise (fun s u => u ≤ s))
    (t : UInt64) : rateLimitingNAttempts ≤ attemptsInLastPeriod r t ↔
      t-rateLimitingTimePeriodSecs ≤ oldest r := by
  have hle : attemptsInLastPeriod r t ≤ r.history.length := List.countP_le_length
  have hfull := r.full
  have hall : attemptsInLastPeriod r t = r.history.length ↔
      ∀ s ∈ r.history, t-rateLimitingTimePeriodSecs ≤ s := by
    simp only [attemptsInLastPeriod,List.countP_eq_length,decide_eq_true_iff]
  constructor
  · intro h
    exact hall.mp (by omega) _ (oldest_mem r)
  · intro h
    have := hall.mpr (fun s hm => UInt64.le_trans h (oldest_le hs s hm))
    omega

/-- When the end time of a history is exact for a clock reading. -/
def ExactAt (oldestSecs t : UInt64) : Prop :=
  (t.toNat < 1800 ∧ oldestSecs = 0) ∨ (t.toNat = 1800 ∧ oldestSecs ≠ 0) ∨
    (1800 < t.toNat ∧ (oldestSecs = 0 ∨
      (oldestSecs.toNat+1800 < 2^64 ∧ t.toNat ≠ oldestSecs.toNat+1800)))

theorem endOf_toNat (oldestSecs : UInt64) :
    (endOf oldestSecs).toNat =
      if oldestSecs = 0 then 0 else (oldestSecs.toNat+1800)%2^64 := by
  have hp : rateLimitingTimePeriodSecs.toNat = 1800 := rfl
  unfold endOf
  by_cases hz : oldestSecs = 0
  · rw [hz,if_pos rfl]
    rfl
  · have hpos : oldestSecs > 0 := by
      apply UInt64.lt_iff_toNat_lt.mpr
      have := (word_ne_iff oldestSecs 0).mp hz
      rw [UInt64.toNat_zero] at this ⊢
      omega
    rw [if_neg hz,if_pos hpos,UInt64.toNat_add,hp]

theorem window_exact_iff (oldestSecs t : UInt64) (hle : oldestSecs ≤ t) :
    (t-rateLimitingTimePeriodSecs ≤ oldestSecs ↔ t < endOf oldestSecs) ↔
      ExactAt oldestSecs t := by
  have hn := UInt64.le_iff_toNat_le.mp hle
  have ht := word_lt t
  have hz : oldestSecs = 0 ↔ oldestSecs.toNat = 0 := word_ext_iff oldestSecs 0
  have he : (endOf oldestSecs).toNat =
      if oldestSecs.toNat = 0 then 0 else (oldestSecs.toNat+1800)%2^64 := by
    rw [endOf_toNat]
    simp only [hz]
  rw [UInt64.lt_iff_toNat_lt,he,ExactAt,Ne,hz]
  rcases Nat.lt_trichotomy t.toNat 1800 with h | h | h
  · rw [iff_false_left (UInt64.not_le.mpr (window_wraps oldestSecs t h hle))]
    by_cases h0 : oldestSecs.toNat = 0
    · rw [if_pos h0]
      omega
    · rw [if_neg h0]
      omega
  · have htp : t = rateLimitingTimePeriodSecs := UInt64.toNat_inj.mp h
    have hw : t-rateLimitingTimePeriodSecs ≤ oldestSecs := by
      rw [htp,UInt64.sub_self]
      exact UInt64.zero_le
    rw [iff_true_left hw]
    by_cases h0 : oldestSecs.toNat = 0
    · rw [if_pos h0]
      omega
    · rw [if_neg h0]
      omega
  · rw [window_iff oldestSecs t h]
    by_cases h0 : oldestSecs.toNat = 0
    · rw [if_pos h0]
      omega
    · rw [if_neg h0]
      omega

/-- In every reachable state of an enabled manager, for every code string and
every clock reading not before the last attempt: the next attempt is limited
just when the reading is before the published end time, exactly when the reading
and the oldest attempt kept are none of those the two treat differently. -/
theorem end_time_exact_iff (hmac : Hmac) (enabled : Bool) (clock : EpgClock)
    (files : Directory) (ops : List Operation) (s : System) (later : EpgClock)
    (codeStr : List UInt8)
    (hr : run (step hmac) ops (constructed enabled clock files) = some s)
    (he : s.core.manager.enabled = true)
    (hlater : s.core.manager.rateLimiting.history.headD 0 ≤ later.time) :
    ((addCode hmac s.core.manager later codeStr).1 = .error tooManyAttemptsError ↔
        later.time < getRateLimitEndTime s.core.manager) ↔
      ExactAt (oldest s.core.manager.rateLimiting) later.time := by
  have hk := run_history hmac enabled clock files ops s hr
  have hle := UInt64.le_trans (oldest_le hk.sorted _ (newest_mem s.core.manager.rateLimiting)) hlater
  rw [addCode_limited_iff hmac _ later codeStr he,limited_iff_oldest hk.sorted,
    getRateLimitEndTime,if_pos he,hk.endTime]
  exact window_exact_iff _ _ hle

def keyOnly : Directory
  | .key => some (List.replicate 64 0)
  | _ => none

def startUp : List Operation :=
  (loadNow 0 ++ loadNow 1 ++ loadNow 2 ++ loadNow 3 ++ loadNow 4 ++ saveNow).map Operation.core

def justStarted : System := constructed true ⟨3000, 0, true⟩ keyOnly

def tenWrong : List Operation := startUp++List.replicate 10 (.addCode [])

theorem end_time_exact_iff_after :
    ∃ s, run (step zeroHmac) tenWrong justStarted = some s ∧
      ((addCode zeroHmac s.core.manager ⟨4801, 0, true⟩ []).1 = .error tooManyAttemptsError ↔
        (4801 : UInt64) < getRateLimitEndTime s.core.manager) := by
  have h : (run (step zeroHmac) tenWrong justStarted).any (fun s =>
      s.core.manager.enabled && decide (s.core.manager.rateLimiting.history.headD 0 ≤ 4801) &&
        decide (oldest s.core.manager.rateLimiting = 3000)) = true := by decide +kernel
  obtain ⟨s,hs,hp⟩ := (Option.any_eq_true _ _).mp h
  rw [Bool.and_eq_true,Bool.and_eq_true] at hp
  refine ⟨s,hs,?_⟩
  apply (end_time_exact_iff zeroHmac true ⟨3000, 0, true⟩ keyOnly tenWrong s ⟨4801, 0, true⟩ []
    hs hp.1.1 (of_decide_eq_true hp.1.2)).mpr
  rw [of_decide_eq_true hp.2]
  exact Or.inr (Or.inr ⟨by decide,Or.inr ⟨by decide,by decide⟩⟩)

/-- At the published end time itself the next attempt is still refused. -/
theorem end_time_refused :
    ¬ ∀ (clock later : EpgClock) (files : Directory) (ops : List Operation) (s : System)
        (codeStr : List UInt8), run (step zeroHmac) ops (constructed true clock files) = some s →
      s.core.manager.enabled = true → 1 ≤ later.time →
      s.core.manager.rateLimiting.history.headD 0 ≤ later.time →
      ((addCode zeroHmac s.core.manager later codeStr).1 = .error tooManyAttemptsError ↔
        later.time < getRateLimitEndTime s.core.manager) := by
  intro h
  have hrun : (run (step zeroHmac) tenWrong justStarted).any (fun s =>
      s.core.manager.enabled && decide (s.core.manager.rateLimiting.history.headD 0 ≤ 4800) &&
        decide ((addCode zeroHmac s.core.manager ⟨4800, 0, true⟩ []).1 =
          .error tooManyAttemptsError) &&
        decide (getRateLimitEndTime s.core.manager = 4800)) = true := by decide +kernel
  obtain ⟨s,hs,hp⟩ := (Option.any_eq_true _ _).mp hrun
  simp only [Bool.and_eq_true,decide_eq_true_iff] at hp
  obtain ⟨⟨⟨he,hpast⟩,hlimited⟩,hend⟩ := hp
  have hlt := (h ⟨3000, 0, true⟩ ⟨4800, 0, true⟩ keyOnly tenWrong s [] hs he (by decide)
    hpast).mp hlimited
  rw [hend] at hlt
  exact absurd hlt (by decide)

end EosPayg.RateLimitEnd
