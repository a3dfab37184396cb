import EosPayg.PaygCodes

/-!
# The manager's state and the one place where its expiry time is set

An operation of the manager returns the next state and, in order, what it did
to the rest of the process: signals emitted, event sources destroyed and
attached, calls on the initialisation task, saves started. All clock readings
of one dispatch agree; they come with whether an event source can be created.
-/

set_option autoImplicit false

namespace EosPayg.ManagerState
open EosPayg.WordArithmetic EosPayg.PaygCodes

structure EpgClock where
  time : UInt64
  wallclockTime : UInt64
  sourceNewSeconds : Bool
  deriving DecidableEq, Repr

structure UsedCode where
  counter : UInt8
  period : EpcPeriod
  deriving DecidableEq, Repr

def usedCodesSortCb (a b : UsedCode) : ℤ :=
  if a.counter ≠ b.counter then (a.counter.toNat:ℤ)-b.counter.toNat
  else if a.period ≠ b.period then (a.period.value:ℤ)-b.period.value
  else 0

def UsedCode.rank (c : UsedCode) : ℕ := 32*c.counter.toNat+c.period.value

theorem UsedCode.rank_injective : Function.Injective UsedCode.rank := by
  intro a b h
  have ha := a.period.value_lt
  have hb := b.period.value_lt
  unfold UsedCode.rank at h
  have hc : a.counter = b.counter := UInt8.toNat_inj.mp (by omega)
  have hp : a.period = b.period := EpcPeriod.value_injective (by omega)
  cases a
  cases b
  simp_all

abbrev UsedCode.Ordered (a b : UsedCode) : Prop := usedCodesSortCb a b ≤ 0

theorem ordered_iff_rank (a b : UsedCode) : a.Ordered b ↔ a.rank ≤ b.rank := by
  have ha := a.period.value_lt
  have hb := b.period.value_lt
  unfold UsedCode.Ordered usedCodesSortCb UsedCode.rank
  split_ifs with hc hp
  · have hn : a.counter.toNat ≠ b.counter.toNat := fun h => hc (UInt8.toNat_inj.mp h)
    omega
  · have hn : a.counter = b.counter := not_not.mp hc
    rw [hn]
    omega
  · have hn : a.counter = b.counter := not_not.mp hc
    have hq : a.period = b.period := not_not.mp hp
    rw [hn,hq]
    omega

instance : Std.Total UsedCode.Ordered :=
  ⟨fun a b => by simpa [ordered_iff_rank] using Nat.le_total a.rank b.rank⟩

instance : IsTrans UsedCode UsedCode.Ordered :=
  ⟨fun a b c => by simpa [ordered_iff_rank] using Nat.le_trans⟩

instance : Std.Antisymm UsedCode.Ordered :=
  ⟨fun a b h h' => UsedCode.rank_injective (le_antisymm ((ordered_iff_rank a b).mp h)
    ((ordered_iff_rank b a).mp h'))⟩

/-- The `used_codes` array, which is kept sorted. -/
@[ext]
structure UsedCodes where
  codes : List UsedCode
  sorted : codes.Pairwise UsedCode.Ordered
  deriving DecidableEq

def noUsedCodes : UsedCodes := ⟨[], List.Pairwise.nil⟩

def gArraySort (codes : List UsedCode) : UsedCodes :=
  ⟨codes.insertionSort UsedCode.Ordered, List.pairwise_insertionSort _ codes⟩

theorem gArraySort_perm (codes : List UsedCode) : (gArraySort codes).codes.Perm codes :=
  List.perm_insertionSort _ codes

theorem gArraySort_sorted (used : UsedCodes) : gArraySort used.codes = used :=
  UsedCodes.ext (List.Pairwise.insertionSort_eq used.sorted)

@[simp]
theorem mem_gArraySort (c : UsedCode) (codes : List UsedCode) :
    c ∈ (gArraySort codes).codes ↔ c ∈ codes :=
  (gArraySort_perm codes).mem_iff

def rateLimitingNAttempts : ℕ := 10

def rateLimitingTimePeriodSecs : UInt64 := 30*60

/-- The FIFO of attempt times, newest first, and its published end time. -/
structure RateLimiting where
  history : List UInt64
  endTimeSecs : UInt64
  full : history.length = rateLimitingNAttempts
  deriving DecidableEq

def noAttempts : RateLimiting := ⟨List.replicate rateLimitingNAttempts 0, 0, rfl⟩

structure EpgManager where
  usedCodes : UsedCodes
  expiryTimeSecs : UInt64
  enabled : Bool
  keyBytes : List UInt8
  accountId : List UInt8
  expiry : Option UInt32
  lastSaveTimeSecs : Option UInt64
  lastSaveExpirySecs : Option UInt64
  rateLimiting : RateLimiting
  pendingInternalSaveStateCalls : ℕ
  cancelled : Bool
  pendingShutdown : Option ℕ
  deriving DecidableEq

def epgManagerInit (enabled : Bool) : EpgManager where
  usedCodes := noUsedCodes
  expiryTimeSecs := 0
  enabled := enabled
  keyBytes := []
  accountId := []
  expiry := none
  lastSaveTimeSecs := none
  lastSaveExpirySecs := none
  rateLimiting := noAttempts
  pendingInternalSaveStateCalls := 0
  cancelled := false
  pendingShutdown := none

def getExpiryTime (self : EpgManager) : UInt64 :=
  if self.enabled then self.expiryTimeSecs else 0

def getRateLimitEndTime (self : EpgManager) : UInt64 :=
  if self.enabled then self.rateLimiting.endTimeSecs else 0

/-- Seconds of credit left, as the user sees them. -/
def remaining (self : EpgManager) (now : UInt64) : ℕ :=
  self.expiryTimeSecs.toNat-now.toNat

inductive GIOError where
  | notFound | failed | invalidData | cancelled | isDirectory | noSpace | permissionDenied
  deriving DecidableEq, Repr

inductive StateFile where
  | clockTime | expirySeconds | usedCodes | expiryTime | key | accountId
  deriving DecidableEq, Repr

/-- What one save writes; an empty list of used codes deletes its file. -/
structure SavedState where
  clockTime : UInt64
  expirySeconds : UInt64
  usedCodes : UsedCodes
  deriving DecidableEq

inductive Property where
  | expiryTime | rateLimitEndTime | enabled
  deriving DecidableEq, Repr

structure Published where
  expiryTime : UInt64
  rateLimitEndTime : UInt64
  deriving DecidableEq, Repr

def published (self : EpgManager) : Published :=
  ⟨getExpiryTime self, getRateLimitEndTime self⟩

inductive Effect where
  | notify (property : Property) (seen : Published)
  | expired (seen : Published)
  | sourceDestroy
  | sourceAttach (interval : UInt32)
  | save (state : SavedState) (forTask : Bool)
  | taskIncrement
  | taskReturnBoolean
  | taskReturnError (error : GIOError)
  | taskSetData (error : GIOError)
  | loadContents (file : StateFile)
  | deleteFile (file : StateFile)
  deriving DecidableEq

abbrev Outcome := EpgManager × List Effect

/-- Run one piece after another and keep the effects in order. -/
def andThen (first : Outcome) (next : EpgManager → Outcome) : Outcome :=
  ((next first.1).1, first.2 ++ (next first.1).2)

@[simp]
theorem andThen_state (first : Outcome) (next : EpgManager → Outcome) :
    (andThen first next).1 = (next first.1).1 := rfl

@[simp]
theorem andThen_effects (first : Outcome) (next : EpgManager → Outcome) :
    (andThen first next).2 = first.2 ++ (next first.1).2 := rfl

def saveState (self : EpgManager) (clock : EpgClock) : SavedState where
  clockTime := clock.wallclockTime
  expirySeconds :=
    if clock.time > self.expiryTimeSecs then 0 else self.expiryTimeSecs-clock.time
  usedCodes := self.usedCodes

theorem saveState_expirySeconds (self : EpgManager) (clock : EpgClock) :
    (saveState self clock).expirySeconds.toNat = remaining self clock.time := by
  simp only [saveState,remaining]
  split_ifs with h
  · have hn := UInt64.lt_iff_toNat_lt.mp h
    rw [UInt64.toNat_zero]
    omega
  · exact UInt64.toNat_sub_of_le _ _ (UInt64.not_lt.mp h)

def internalSave (self : EpgManager) (clock : EpgClock) (task : Bool) : Outcome :=
  ({ self with pendingInternalSaveStateCalls := self.pendingInternalSaveStateCalls+1 },
    (if task then [.taskIncrement] else []) ++ [.save (saveState self clock) task])

def clearExpiryTimer (self : EpgManager) : Outcome :=
  match self.expiry with
  | some _ => ({ self with expiry := none }, [.sourceDestroy])
  | none => (self, [])

def checkExpiredCb (self : EpgManager) (clock : EpgClock) : Bool × List Effect :=
  if self.enabled = false then (false, [])
  else if self.expiryTimeSecs ≤ clock.time then (false, [.expired (published self)])
  else (true, [])

def gMaxUint : ℕ := 4294967295

def expirySpanClamped (expiryTimeSecs nowSecs : UInt64) : UInt32 :=
  UInt32.ofNat (min (expiryTimeSecs-nowSecs).toNat gMaxUint)

def armExpiryTimer (clock : EpgClock) (nowSecs : UInt64) (self : EpgManager) : Outcome :=
  if self.expiryTimeSecs ≠ maxWord then
    if clock.sourceNewSeconds then
      ({ self with expiry := some (expirySpanClamped self.expiryTimeSecs nowSecs) },
        [.sourceAttach (expirySpanClamped self.expiryTimeSecs nowSecs)])
    else
      ({ self with expiryTimeSecs := nowSecs },
        (checkExpiredCb { self with expiryTimeSecs := nowSecs } clock).2)
  else (self, [])

def announceExpiryTime (clock : EpgClock) (task save : Bool) (oldExpiryTimeSecs : UInt64)
    (self : EpgManager) : Outcome :=
  if oldExpiryTimeSecs ≠ self.expiryTimeSecs ∧ self.enabled then
    andThen (self, [.notify .expiryTime (published self)]) (fun m =>
      if save then internalSave m clock task else (m, []))
  else (self, [])

def setExpiryTime (self : EpgManager) (clock : EpgClock) (task save : Bool)
    (nowSecs spanSecs : UInt64) : Outcome :=
  andThen (andThen
    (clearExpiryTimer { self with expiryTimeSecs := saturatingAdd nowSecs spanSecs })
    (armExpiryTimer clock nowSecs))
    (announceExpiryTime clock task save self.expiryTimeSecs)

def expiryAfter (clock : EpgClock) (nowSecs spanSecs : UInt64) : UInt64 :=
  if saturatingAdd nowSecs spanSecs ≠ maxWord ∧ clock.sourceNewSeconds = false then nowSecs
  else saturatingAdd nowSecs spanSecs

def timerAfter (clock : EpgClock) (nowSecs spanSecs : UInt64) : Option UInt32 :=
  if saturatingAdd nowSecs spanSecs ≠ maxWord ∧ clock.sourceNewSeconds = true then
    some (expirySpanClamped (saturatingAdd nowSecs spanSecs) nowSecs)
  else none

@[simp]
theorem clearExpiryTimer_state (self : EpgManager) :
    (clearExpiryTimer self).1 = { self with expiry := none } := by
  unfold clearExpiryTimer
  split
  · rfl
  · next h => cases self; simp_all

theorem armExpiryTimer_state (self : EpgManager) (clock : EpgClock) (nowSecs spanSecs : UInt64)
    (he : self.expiryTimeSecs = saturatingAdd nowSecs spanSecs) (hn : self.expiry = none) :
    (armExpiryTimer clock nowSecs self).1 =
      { self with expiryTimeSecs := expiryAfter clock nowSecs spanSecs
                  expiry := timerAfter clock nowSecs spanSecs } := by
  unfold armExpiryTimer expiryAfter timerAfter
  rw [he]
  by_cases hm : saturatingAdd nowSecs spanSecs = maxWord
  · cases self
    simp_all
  · cases hs : clock.sourceNewSeconds
    · simp [hm,hn]
    · simp [hm]

theorem announceExpiryTime_state (self : EpgManager) (clock : EpgClock) (task save : Bool)
    (old : UInt64) :
    (announceExpiryTime clock task save old self).1 =
      { self with pendingInternalSaveStateCalls := self.pendingInternalSaveStateCalls +
          if old ≠ self.expiryTimeSecs ∧ self.enabled = true ∧ save = true then 1 else 0 } := by
  unfold announceExpiryTime
  by_cases h : old ≠ self.expiryTimeSecs ∧ self.enabled = true
  · rw [if_pos h,andThen_state]
    cases save
    · rw [if_neg (by simp),if_neg (by simp)]
      rfl
    · rw [if_pos rfl,if_pos ⟨h.1,h.2,rfl⟩]
      rfl
  · rw [if_neg h,if_neg (fun hh => h ⟨hh.1,hh.2.1⟩)]
    rfl

/-- Everything `setExpiryTime` does to the state, in one record update. -/
theorem setExpiryTime_state (self : EpgManager) (clock : EpgClock) (task save : Bool)
    (nowSecs spanSecs : UInt64) :
    (setExpiryTime self clock task save nowSecs spanSecs).1 =
      { self with
        expiryTimeSecs := expiryAfter clock nowSecs spanSecs
        expiry := timerAfter clock nowSecs spanSecs
        pendingInternalSaveStateCalls := self.pendingInternalSaveStateCalls +
          if self.expiryTimeSecs ≠ expiryAfter clock nowSecs spanSecs ∧
            self.enabled = true ∧ save = true then 1 else 0 } := by
  unfold setExpiryTime
  rw [andThen_state,andThen_state,clearExpiryTimer_state,
    armExpiryTimer_state _ clock nowSecs spanSecs rfl rfl,announceExpiryTime_state]

def Effect.ofTimer : Effect → Bool
  | .expired _ => true
  | .sourceDestroy => true
  | .sourceAttach _ => true
  | _ => false

theorem clearExpiryTimer_ofTimer (self : EpgManager) :
    (clearExpiryTimer self).2.all Effect.ofTimer = true := by
  unfold clearExpiryTimer
  split <;> rfl

theorem armExpiryTimer_ofTimer (clock : EpgClock) (nowSecs : UInt64) (self : EpgManager) :
    (armExpiryTimer clock nowSecs self).2.all Effect.ofTimer = true := by
  unfold armExpiryTimer checkExpiredCb
  split_ifs <;> rfl

/-- After the effects on its timer, an expiry time that has changed is
announced, and saved if that is asked for. -/
theorem setExpiryTime_effects (self : EpgManager) (clock : EpgClock) (task save : Bool)
    (nowSecs spanSecs : UInt64) :
    ∃ before, before.all Effect.ofTimer = true ∧
      (setExpiryTime self clock task save nowSecs spanSecs).2 = before ++
        if self.expiryTimeSecs ≠ expiryAfter clock nowSecs spanSecs ∧ self.enabled = true then
          .notify .expiryTime
              (published (setExpiryTime self clock task save nowSecs spanSecs).1) ::
            if save then (internalSave
              (setExpiryTime self clock task save nowSecs spanSecs).1 clock task).2 else []
        else [] := by
  have hstate := armExpiryTimer_state { self with
    expiryTimeSecs := saturatingAdd nowSecs spanSecs, expiry := none } clock nowSecs spanSecs rfl rfl
  have hset : setExpiryTime self clock task save nowSecs spanSecs = andThen (andThen
      (clearExpiryTimer { self with expiryTimeSecs := saturatingAdd nowSecs spanSecs })
      (armExpiryTimer clock nowSecs)) (announceExpiryTime clock task save self.expiryTimeSecs) := rfl
  have hm : (andThen
      (clearExpiryTimer { self with expiryTimeSecs := saturatingAdd nowSecs spanSecs })
      (armExpiryTimer clock nowSecs)).1 =
        { self with
          expiryTimeSecs := expiryAfter clock nowSecs spanSecs
          expiry := timerAfter clock nowSecs spanSecs } := by
    rw [andThen_state,clearExpiryTimer_state,hstate]
  have hbefore : (andThen
      (clearExpiryTimer { self with expiryTimeSecs := saturatingAdd nowSecs spanSecs })
      (armExpiryTimer clock nowSecs)).2.all Effect.ofTimer = true := by
    rw [andThen_effects,List.all_append,clearExpiryTimer_ofTimer,armExpiryTimer_ofTimer]
    rfl
  rw [hset]
  generalize andThen (clearExpiryTimer _) (armExpiryTimer clock nowSecs) = m at hm hbefore ⊢
  use m.2
  constructor
  · exact hbefore
  · rw [andThen_effects,andThen_state,hm]
    unfold announceExpiryTime
    by_cases hc : self.expiryTimeSecs ≠ expiryAfter clock nowSecs spanSecs ∧ self.enabled = true
    · rw [if_pos hc,if_pos hc]
      cases save <;> rfl
    · rw [if_neg hc,if_neg hc]

theorem expiryAfter_toNat (clock : EpgClock) (nowSecs spanSecs : UInt64) :
    (expiryAfter clock nowSecs spanSecs).toNat =
      if clock.sourceNewSeconds = true ∨ maxWord.toNat ≤ nowSecs.toNat+spanSecs.toNat then
        min maxWord.toNat (nowSecs.toNat+spanSecs.toNat)
      else nowSecs.toNat := by
  have hadd := saturatingAdd_toNat nowSecs spanSecs
  rw [← maxWord_toNat,min_comm] at hadd
  have hmax : saturatingAdd nowSecs spanSecs = maxWord ↔
      maxWord.toNat ≤ nowSecs.toNat+spanSecs.toNat := by
    rw [word_ext_iff,hadd]
    exact min_eq_left_iff
  unfold expiryAfter
  by_cases h : maxWord.toNat ≤ nowSecs.toNat+spanSecs.toNat
  · rw [if_neg (fun hh => hh.1 (hmax.mpr h)),if_pos (Or.inr h),hadd]
  · have hne : saturatingAdd nowSecs spanSecs ≠ maxWord := fun hh => h (hmax.mp hh)
    cases hsource : clock.sourceNewSeconds with
    | true => rw [if_neg (by simp),if_pos (Or.inl rfl),hadd]
    | false => rw [if_pos ⟨hne,rfl⟩,if_neg (fun hh => hh.elim (by simp) h)]

theorem expiryAfter_toNat_le (clock : EpgClock) (nowSecs spanSecs : UInt64) :
    (expiryAfter clock nowSecs spanSecs).toNat ≤ nowSecs.toNat+spanSecs.toNat := by
  have hs := saturatingAdd_toNat nowSecs spanSecs
  unfold expiryAfter
  split_ifs <;> omega

theorem expiryAfter_ge (clock : EpgClock) (nowSecs spanSecs : UInt64) :
    nowSecs.toNat ≤ (expiryAfter clock nowSecs spanSecs).toNat := by
  have hs := saturatingAdd_ge nowSecs spanSecs
  unfold expiryAfter
  split_ifs <;> omega

theorem expiryAfter_of_source (clock : EpgClock) (nowSecs spanSecs : UInt64)
    (h : clock.sourceNewSeconds = true) :
    expiryAfter clock nowSecs spanSecs = saturatingAdd nowSecs spanSecs := by
  simp [expiryAfter,h]

end EosPayg.ManagerState
