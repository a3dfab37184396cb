import EosPayg.RateLimitEnd
import EosPayg.ServiceShutdown

/-!
# What clients are told of the expiry time and the rate limit

A client on the bus caches two properties and replaces a value when it is
notified, with the value the property has at that moment. Whatever changes the
expiry time notifies it afterwards. An attempt also moves the end of the rate
limit, and leaves it to a function called later to say so, which is not called
when the code is refused.
-/

set_option autoImplicit false

namespace EosPayg.ClientProperties
open EosPayg.PaygCodes EosPayg.ManagerState EosPayg.ManagerCode EosPayg.ManagerFiles
  EosPayg.Lifecycle EosPayg.GuardedRun EosPayg.RateLimitEnd
open EosPayg.Shutdown (internalSaveStateCb shutdownAsync internalSaveStateCb_kept)
open EosPayg.LoadCallback (spend costs Effect.cost)
open EosPayg.Initialisation (Accounts Initialised performAll performAll_extends
  performAll_accounts same_accounts weaken_accounts outstanding weights setReported)
open EosPayg.InitTask (callback initAsync_accounts)
open EosPayg.ServiceShutdown (initialised Loaded Effect.ofBus core_accounts core_loaded serve_loaded
  startShutdown_loaded initialised_loaded loads_loaded addCode_ofBus clearCode_ofBus
  wallclockTimeChanged_ofBus checkExpiredCb_ofBus)

def Effect.seenAt (property : Property) : Effect → Option Published
  | .notify notified seen => if notified = property then some seen else none
  | _ => none

/-- What was seen at the last notification of a property. -/
def lastSeen (property : Property) (effects : List Effect) : Option Published :=
  (effects.filterMap (Effect.seenAt property)).getLast?

theorem lastSeen_append (property : Property) (as bs : List Effect) :
    lastSeen property (as++bs) = (lastSeen property bs).or (lastSeen property as) := by
  rw [lastSeen,List.filterMap_append,List.getLast?_append]
  rfl

theorem lastSeen_silent (property : Property) (effects : List Effect)
    (h : ∀ e ∈ effects, Effect.seenAt property e = none) : lastSeen property effects = none := by
  rw [lastSeen,List.filterMap_eq_nil_iff.mpr h]
  rfl

theorem lastSeen_ofTimer (property : Property) (effects : List Effect)
    (h : effects.all Effect.ofTimer = true) : lastSeen property effects = none := by
  apply lastSeen_silent
  intro e he
  have ht := List.all_eq_true.mp h e he
  cases e <;> first | rfl | cases ht

structure Cached where
  property : Property
  value : Published → UInt64

def expiryTime : Cached := ⟨.expiryTime, Published.expiryTime⟩

def rateLimitEndTime : Cached := ⟨.rateLimitEndTime, Published.rateLimitEndTime⟩

def cached : List Cached := [expiryTime, rateLimitEndTime]

theorem forall_cached {P : Cached → Prop} :
    (∀ c ∈ cached, P c) ↔ P expiryTime ∧ P rateLimitEndTime := by
  rw [cached,List.forall_mem_cons,List.forall_mem_singleton]

/-- If the value after an operation differs from the one before, the property was
notified after its last change: the last notification saw the final value. -/
def Told (c : Cached) (before : EpgManager) (out : Outcome) : Prop :=
  c.value (published out.1) ≠ c.value (published before) →
    ∃ seen, lastSeen c.property out.2 = some seen ∧ c.value seen = c.value (published out.1)

def Heard (c : Cached) (before : EpgManager) (out : Outcome) : Prop :=
  match lastSeen c.property out.2 with
  | none => c.value (published out.1) = c.value (published before)
  | some seen => c.value seen = c.value (published out.1)

theorem heard_silent {c : Cached} {before : EpgManager} {out : Outcome}
    (h : lastSeen c.property out.2 = none) :
    Heard c before out ↔ c.value (published out.1) = c.value (published before) := by
  rw [Heard,h]

theorem heard_notified {c : Cached} {before : EpgManager} {out : Outcome} {seen : Published}
    (h : lastSeen c.property out.2 = some seen) :
    Heard c before out ↔ c.value seen = c.value (published out.1) := by
  rw [Heard,h]

theorem told_of_heard {c : Cached} {before : EpgManager} {out : Outcome}
    (h : Heard c before out) : Told c before out := by
  intro hne
  cases hl : lastSeen c.property out.2 with
  | none => exact absurd ((heard_silent hl).mp h) hne
  | some seen => exact ⟨seen,rfl,(heard_notified hl).mp h⟩

theorem told_silent {c : Cached} {before : EpgManager} {out : Outcome}
    (h : lastSeen c.property out.2 = none) : Told c before out ↔ Heard c before out := by
  refine ⟨fun ht => ?_,told_of_heard⟩
  rw [heard_silent h]
  by_contra hne
  obtain ⟨seen,hl,-⟩ := ht hne
  rw [h] at hl
  cases hl

theorem setExpiryTime_lastSeen (self : EpgManager) (clock : EpgClock) (nowSecs spanSecs : UInt64) :
    let out := setExpiryTime self clock false false nowSecs spanSecs
    lastSeen .rateLimitEndTime out.2 = none ∧
      lastSeen .expiryTime out.2 =
        if self.expiryTimeSecs ≠ out.1.expiryTimeSecs ∧ self.enabled = true then
          some (published out.1)
        else none := by
  intro out
  rcases setExpiryTime_effects self clock false false nowSecs spanSecs with ⟨before,hb,he⟩
  have hx : out.1.expiryTimeSecs = expiryAfter clock nowSecs spanSecs :=
    congrArg EpgManager.expiryTimeSecs (setExpiryTime_state self clock false false nowSecs spanSecs)
  rw [he,lastSeen_append,lastSeen_append,lastSeen_ofTimer _ before hb,lastSeen_ofTimer _ before hb,
    hx]
  split_ifs <;> exact ⟨rfl,rfl⟩

theorem setExpiryTime_heard (self : EpgManager) (clock : EpgClock) (nowSecs spanSecs : UInt64) :
    Heard expiryTime self (setExpiryTime self clock false false nowSecs spanSecs) := by
  have hl := (setExpiryTime_lastSeen self clock nowSecs spanSecs).2
  by_cases hc : self.expiryTimeSecs ≠
      (setExpiryTime self clock false false nowSecs spanSecs).1.expiryTimeSecs ∧
      self.enabled = true
  · rw [if_pos hc] at hl
    rw [heard_notified hl]
  · rw [if_neg hc] at hl
    rw [heard_silent hl]
    have he : (setExpiryTime self clock false false nowSecs spanSecs).1.enabled = self.enabled := by
      rw [setExpiryTime_state]
    show getExpiryTime _ = getExpiryTime self
    unfold getExpiryTime
    rw [he]
    split_ifs with hen
    · by_contra hne
      exact hc ⟨fun hh => hne hh.symm,hen⟩
    · rfl

theorem heard_andThen {c : Cached} {before : EpgManager} {first : Outcome}
    {next : EpgManager → Outcome} (h : Heard c before first)
    (hs : lastSeen c.property (next first.1).2 = none)
    (hv : c.value (published (next first.1).1) = c.value (published first.1)) :
    Heard c before (andThen first next) := by
  have hl : lastSeen c.property (andThen first next).2 = lastSeen c.property first.2 := by
    rw [andThen_effects,lastSeen_append,hs]
    rfl
  unfold Heard at h ⊢
  rw [hl,andThen_state,hv]
  exact h

theorem heard_saved {c : Cached} {before : EpgManager} {first : Outcome} (clock : EpgClock)
    (h : Heard c before first) :
    Heard c before (andThen first (fun m => internalSave m clock false)) :=
  heard_andThen h rfl rfl

theorem heard_nothing (c : Cached) (self : EpgManager) : Heard c self (self,[]) := rfl

theorem clearRateLimiting_lastSeen (self : EpgManager) (he : self.enabled = true) :
    lastSeen .rateLimitEndTime (clearRateLimiting self).2 =
      some (published (clearRateLimiting self).1) := by
  unfold clearRateLimiting
  dsimp only
  rw [if_pos he]
  rfl

theorem clearRateLimiting_silent (self : EpgManager) :
    lastSeen .expiryTime (clearRateLimiting self).2 = none := by
  unfold clearRateLimiting
  split_ifs <;> rfl

theorem creditCode_expiryTime_heard (self : EpgManager) (clock : EpgClock) (used : UsedCode) :
    Heard expiryTime self (creditCode self clock used).2 := by
  let marked := { self with usedCodes := gArraySort (self.usedCodes.codes ++ [used]) }
  apply heard_saved
  exact heard_andThen (setExpiryTime_heard marked clock _ _) (clearRateLimiting_silent _) rfl

theorem creditCode_rateLimit_heard (before self : EpgManager) (clock : EpgClock)
    (used : UsedCode) (he : self.enabled = true) :
    Heard rateLimitEndTime before (creditCode self clock used).2 := by
  let marked := { self with usedCodes := gArraySort (self.usedCodes.codes ++ [used]) }
  let extended := (extendExpiryTime marked clock clock.time used.period).2
  have hen : extended.1.enabled = true := by
    show (setExpiryTime marked clock false false _ _).1.enabled = true
    rw [setExpiryTime_state]
    exact he
  have hl : lastSeen .rateLimitEndTime (andThen extended clearRateLimiting).2 =
      some (published (clearRateLimiting extended.1).1) := by
    rw [andThen_effects,lastSeen_append,clearRateLimiting_lastSeen _ hen]
    rfl
  apply heard_saved
  exact (heard_notified hl).mpr rfl

theorem zeroExpiryTime_heard (self : EpgManager) :
    ∀ c ∈ cached, Heard c self (zeroExpiryTime self) := by
  rw [forall_cached]
  unfold zeroExpiryTime
  by_cases hz : self.expiryTimeSecs ≠ 0
  · rw [if_pos hz]
    refine ⟨(heard_notified rfl).mpr rfl,(heard_silent rfl).mpr rfl⟩
  · rw [if_neg hz]
    exact ⟨heard_nothing _ self,heard_nothing _ self⟩

theorem clearExpiryTimer_published (self : EpgManager) :
    published (clearExpiryTimer self).1 = published self := by
  rw [clearExpiryTimer_state]
  rfl

theorem clearCode_heard (self : EpgManager) (clock : EpgClock) :
    ∀ c ∈ cached, Heard c self (clearCode self clock).2 := by
  intro c hc
  rcases clearCode_cases self clock with ⟨he,hn⟩ | h
  · rw [clearCode_ok self clock he hn]
    apply heard_saved
    apply heard_andThen (zeroExpiryTime_heard self c hc)
    · exact lastSeen_ofTimer _ _ (clearExpiryTimer_ofTimer _)
    · rw [clearExpiryTimer_published]
  · rw [h]
    exact heard_nothing c self

theorem consumeJump_heard (self : EpgManager) (clock : EpgClock) (delta : UInt64) :
    ∀ c ∈ cached, Heard c self (consumeJump self clock delta) := by
  rw [forall_cached,consumeJump_eq]
  split_ifs
  · refine ⟨setExpiryTime_heard _ _ _ _,(heard_silent (setExpiryTime_lastSeen _ _ _ _).1).mpr ?_⟩
    rw [setExpiryTime_state]
    rfl
  · exact ⟨heard_nothing _ self,heard_nothing _ self⟩

theorem wallclockTimeChanged_heard (self : EpgManager) (clock : EpgClock) (delta : Int64) :
    ∀ c ∈ cached, Heard c self (wallclockTimeChanged self clock delta) := by
  intro c hc
  unfold wallclockTimeChanged
  by_cases hz : delta = 0
  · rw [if_pos hz]
    exact heard_nothing c self
  · rw [if_neg hz]
    apply heard_saved
    split_ifs
    · exact consumeJump_heard self clock _ c hc
    · exact heard_nothing c self

theorem checkExpiredCb_heard (self : EpgManager) (clock : EpgClock) (c : Cached) :
    Heard c self (self,(checkExpiredCb self clock).2) := by
  refine (heard_silent ?_).mpr rfl
  unfold checkExpiredCb
  split_ifs <;> rfl

def nextOldest (r : RateLimiting) : UInt64 :=
  (r.history.take (rateLimitingNAttempts-1)).getLastD 0

/-- An attempt that is refused without the limiter saying so leaves the end of
the rate limit where it was. -/
def AttemptAnnounced (hmac : Hmac) (self : EpgManager) (clock : EpgClock)
    (codeStr : List UInt8) : Prop :=
  self.enabled = true → acceptedCode hmac self clock codeStr = none →
    attemptsInLastPeriod self.rateLimiting clock.time < rateLimitingNAttempts →
      endOf (nextOldest self.rateLimiting) = endOf (oldest self.rateLimiting)

theorem pushAttempt_endTime (r : RateLimiting) (nowSecs : UInt64) :
    (pushAttempt r nowSecs).endTimeSecs = endOf (nextOldest r) := by
  have hlen : (r.history.take (rateLimitingNAttempts-1)).length = 9 := by
    rw [List.length_take,r.full]
    rfl
  have hlast : (nowSecs::r.history.take (rateLimitingNAttempts-1)).getLastD 0 = nextOldest r := by
    unfold nextOldest
    cases hh : r.history.take (rateLimitingNAttempts-1) with
    | nil =>
      rw [hh] at hlen
      cases hlen
    | cons u us => simp [List.getLastD]
  show endOf ((nowSecs::r.history.take (rateLimitingNAttempts-1)).getLastD 0) = _
  rw [hlast]

theorem addCode_expiryTime_heard (hmac : Hmac) (self : EpgManager) (clock : EpgClock)
    (codeStr : List UInt8) : Heard expiryTime self (addCode hmac self clock codeStr).2 := by
  cases h : acceptedCode hmac self clock codeStr with
  | some used =>
    rw [addCode_accepted hmac self clock codeStr used h]
    exact creditCode_expiryTime_heard (recordAttempt self clock.time) clock used
  | none =>
    obtain ⟨e,ho⟩ := addCode_refused_outcome hmac self clock codeStr h
    rw [ho]
    refine (heard_silent ?_).mpr ?_
    · split_ifs <;> rfl
    · split_ifs <;> rfl

/-- For a history that keeps its end time: a client learns the end of the rate
limit after an attempt exactly when the attempt is announced. -/
theorem addCode_rateLimit_heard (hmac : Hmac) (self : EpgManager) (clock : EpgClock)
    (codeStr : List UInt8) (hk : self.rateLimiting.endTimeSecs = endOf (oldest self.rateLimiting)) :
    (Heard rateLimitEndTime self (addCode hmac self clock codeStr).2 ↔
        AttemptAnnounced hmac self clock codeStr) ∧
      (Told rateLimitEndTime self (addCode hmac self clock codeStr).2 ↔
        AttemptAnnounced hmac self clock codeStr) := by
  have hboth (h : Heard rateLimitEndTime self (addCode hmac self clock codeStr).2)
      (ha : AttemptAnnounced hmac self clock codeStr) :
      (Heard rateLimitEndTime self (addCode hmac self clock codeStr).2 ↔
          AttemptAnnounced hmac self clock codeStr) ∧
        (Told rateLimitEndTime self (addCode hmac self clock codeStr).2 ↔
          AttemptAnnounced hmac self clock codeStr) :=
    ⟨iff_of_true h ha,iff_of_true (told_of_heard h) ha⟩
  cases h : acceptedCode hmac self clock codeStr with
  | some used =>
    refine hboth ?_ (fun _ hn => absurd (h.symm.trans hn) (Option.some_ne_none used))
    rw [addCode_accepted hmac self clock codeStr used h]
    exact creditCode_rateLimit_heard self (recordAttempt self clock.time) clock used
      (acceptedCode_some h).1
  | none =>
    obtain ⟨e,ho⟩ := addCode_refused_outcome hmac self clock codeStr h
    by_cases he : self.enabled = true
    · by_cases hl : rateLimitingNAttempts ≤ attemptsInLastPeriod self.rateLimiting clock.time
      · refine hboth ?_ (fun _ _ hn => absurd hn (Nat.not_lt.mpr hl))
        rw [ho,if_pos he,if_pos ⟨he,hl⟩]
        exact (heard_notified rfl).mpr rfl
      · rw [ho,if_pos he,if_neg (fun hh => hl hh.2)]
        have hvalue : Heard rateLimitEndTime self (recordAttempt self clock.time,[]) ↔
            AttemptAnnounced hmac self clock codeStr := by
          rw [heard_silent rfl]
          have hen : (recordAttempt self clock.time).enabled = true := he
          show getRateLimitEndTime (recordAttempt self clock.time) = getRateLimitEndTime self ↔ _
          rw [getRateLimitEndTime,getRateLimitEndTime,if_pos hen,if_pos he,hk]
          show (pushAttempt self.rateLimiting clock.time).endTimeSecs = _ ↔ _
          rw [pushAttempt_endTime]
          exact ⟨fun hv _ _ _ => hv,fun ha => ha he h (Nat.not_le.mp hl)⟩
        exact ⟨hvalue,(told_silent rfl).trans hvalue⟩
    · refine hboth ?_ (fun hh => absurd hh he)
      rw [ho,if_neg he,if_neg (fun hh => he hh.1)]
      exact heard_nothing _ self

def emitted (hmac : Hmac) (s : System) : Operation → List Effect
  | .core op => (callback s.core op).elim [] Prod.snd
  | .addCode codeStr => (addCode hmac s.core.manager s.core.clock codeStr).2.2
  | .clearCode => (clearCode s.core.manager s.core.clock).2.2
  | .wallclockTimeChanged delta => (wallclockTimeChanged s.core.manager s.core.clock delta).2
  | .checkExpired => (checkExpiredCb s.core.manager s.core.clock).2
  | .shutdown => []

def Announced (hmac : Hmac) (s : System) : Operation → Prop
  | .addCode codeStr => AttemptAnnounced hmac s.core.manager s.core.clock codeStr
  | _ => True

theorem ofBus_spends (effects : List Effect) (h : effects.all Effect.ofBus = true) :
    run spend effects 0 = some 0 ∧ costs effects = 0 := by
  induction effects with
  | nil => exact ⟨rfl,rfl⟩
  | cons e es ih =>
    rw [List.all_cons,Bool.and_eq_true] at h
    obtain ⟨hs,hc⟩ := ih h.2
    have he : spend 0 e = some 0 ∧ Effect.cost e = 0 := by
      cases e with
      | save saved forTask =>
        cases forTask with
        | true => cases h.1
        | false => exact ⟨rfl,rfl⟩
      | _ => first | exact ⟨rfl,rfl⟩ | cases h.1
    constructor
    · rw [run,he.1]
      exact hs
    · show Effect.cost e+costs es = 0
      rw [he.2,hc]

theorem serve_accounts {s : System} (h : Accounts s.core 0 0) (out : Outcome)
    (hb : out.2.all Effect.ofBus = true) : Accounts (serve s out).core 0 0 := by
  obtain ⟨hs,hc⟩ := ofBus_spends out.2 hb
  apply performAll_accounts out.2 _ 0 0 _ hs
  rw [hc]
  exact same_accounts h rfl rfl rfl

theorem startShutdown_accounts {s : System} (h : Accounts s.core 0 0) :
    Accounts (startShutdown s).core 0 0 := by
  unfold startShutdown
  dsimp only
  cases (shutdownAsync s.core.manager).2 with
  | refused error => exact h
  | waits => exact same_accounts h rfl rfl rfl
  | saves =>
    refine same_accounts h rfl ?_ rfl
    simp only [outstanding,List.countP_append,List.countP_singleton]
    rfl

theorem step_accounts (hmac : Hmac) (s : System) (op : Operation) (s' : System)
    (h : Accounts s.core 0 0) (hs : step hmac s op = some s') : Accounts s'.core 0 0 := by
  cases op with
  | core op => exact core_accounts h hs
  | addCode codeStr =>
    cases hs
    exact serve_accounts h _ (addCode_ofBus hmac _ _ codeStr)
  | clearCode =>
    cases hs
    exact serve_accounts h _ (clearCode_ofBus _ _)
  | wallclockTimeChanged delta =>
    cases hs
    exact serve_accounts h _ (wallclockTimeChanged_ofBus _ _ delta)
  | checkExpired =>
    cases hs
    exact serve_accounts h _ (checkExpiredCb_ofBus _ _)
  | shutdown =>
    cases hs
    exact startShutdown_accounts h

theorem initialised_of {s : Initialisation.System} (h : initialised s = true) :
    Initialised s := by
  obtain ⟨r,hr,hok⟩ := List.any_eq_true.mp h
  cases r with
  | ok v => exact ⟨v,hr⟩
  | error e => cases hok

theorem run_loaded (hmac : Hmac) (enabled : Bool) (clock : EpgClock) (files : Directory)
    (ops : List Operation) (s : System)
    (hr : run (step hmac) ops (constructed enabled clock files) = some s)
    (hi : Initialised s.core) : Loaded s.core := by
  have ha : Accounts s.core 0 0 := run_invariant (I := fun s => Accounts s.core 0 0)
    (step_accounts hmac) (initAsync_accounts (epgManagerInit enabled) clock files) hr
  obtain ⟨v,hv⟩ := hi
  exact initialised_loaded ha (List.any_eq_true.mpr ⟨_,hv,rfl⟩)

theorem step_loaded {hmac : Hmac} {s s' : System} {op : Operation} (h : Loaded s.core)
    (hs : step hmac s op = some s') : Loaded s'.core := by
  cases op with
  | core op =>
    have hstill := core_loaded h hs
    exact loads_loaded h hstill.loads hstill.deletions
  | addCode codeStr =>
    cases hs
    exact serve_loaded h _ (addCode_ofBus hmac _ _ codeStr)
  | clearCode =>
    cases hs
    exact serve_loaded h _ (clearCode_ofBus _ _)
  | wallclockTimeChanged delta =>
    cases hs
    exact serve_loaded h _ (wallclockTimeChanged_ofBus _ _ delta)
  | checkExpired =>
    cases hs
    exact serve_loaded h _ (checkExpiredCb_ofBus _ _)
  | shutdown =>
    cases hs
    exact startShutdown_loaded h

theorem published_congr {m m' : EpgManager} (he : m'.enabled = m.enabled)
    (hx : m'.expiryTimeSecs = m.expiryTimeSecs) (hr : m'.rateLimiting = m.rateLimiting) :
    published m' = published m := by
  unfold published getExpiryTime getRateLimitEndTime
  rw [he,hx,hr]

theorem internalSaveStateCb_published (self : EpgManager) (result : Except GIOError Unit) :
    published (internalSaveStateCb self result).1 = published self := by
  apply published_congr
  · unfold internalSaveStateCb
    split_ifs
    · dsimp only
      split_ifs <;> rfl
    · rfl
  · exact (internalSaveStateCb_kept self result).1
  · exact internalSaveStateCb_rateLimiting self result

theorem shutdownAsync_published (self : EpgManager) :
    published (shutdownAsync self).1 = published self := by
  unfold shutdownAsync
  split_ifs <;> rfl

theorem startShutdown_published (s : System) :
    published (startShutdown s).core.manager = published s.core.manager := by
  have hp := shutdownAsync_published s.core.manager
  unfold startShutdown
  dsimp only
  cases (shutdownAsync s.core.manager).2 with
  | refused error => rfl
  | saves => exact hp
  | waits => exact hp

theorem core_published {hmac : Hmac} {s s' : System} {op : Initialisation.Operation}
    (h : Loaded s.core) (hs : step hmac s (.core op) = some s') :
    published s'.core.manager = published s.core.manager := by
  rcases core_cases hs with ⟨i,sv,result,-,-,-,-,rfl⟩ | ⟨hne,core,hcore,rfl⟩
  · unfold report
    split_ifs
    · rfl
    · have hm : (Initialisation.saveCb s.core i sv result).manager =
          (internalSaveStateCb s.core.manager result).1 :=
        (performAll_extends (Initialisation.reportEffects sv.forTask result) _).manager
      dsimp only
      rw [hm]
      exact internalSaveStateCb_published s.core.manager result
  · cases Initialisation.step_cases s.core core op hcore with
    | loadCb i l result hi hl =>
      have hcalled : l.status = .called := by
        simpa [Initialisation.Load.isCalled] using h.loads l (List.mem_of_getElem? hi)
      rw [hcalled] at hl
      cases hl
    | deleteCb i d error hi hd =>
      have hcalled := h.deletions d (List.mem_of_getElem? hi)
      rw [hd] at hcalled
      cases hcalled
    | saveCb i sv result hi hresult hr => exact absurd rfl (hne i)
    | _ => rfl

theorem callback_silent {s : Initialisation.System} (h : Loaded s) (op : Initialisation.Operation)
    (property : Property) : lastSeen property ((callback s op).elim [] Prod.snd) = none := by
  cases op with
  | loadCb i =>
    cases hi : s.loads[i]? with
    | none =>
      simp only [callback,bind,hi,Option.bind_none]
      rfl
    | some l =>
      have hcalled : l.status = .called := by
        simpa [Initialisation.Load.isCalled] using h.loads l (List.mem_of_getElem? hi)
      simp only [callback,bind,hi,Option.bind_some,hcalled]
      rfl
  | deleteCb i =>
    cases hi : s.deletions[i]? with
    | none =>
      simp only [callback,bind,hi,Option.bind_none]
      rfl
    | some d =>
      have hcalled := h.deletions d (List.mem_of_getElem? hi)
      cases hd : d.status with
      | done error =>
        rw [hd] at hcalled
        cases hcalled
      | _ =>
        simp only [callback,bind,hi,Option.bind_some,hd]
        rfl
  | saveCb i =>
    cases hi : s.saves[i]? with
    | none =>
      simp only [callback,bind,hi,Option.bind_none]
      rfl
    | some sv =>
      simp only [callback,bind,hi,Option.bind_some]
      cases sv.result with
      | none => rfl
      | some result =>
        show lastSeen property (Initialisation.reportEffects sv.forTask result) = none
        unfold Initialisation.reportEffects
        cases sv.forTask with
        | false => rfl
        | true => cases result <;> rfl
  | _ => rfl

theorem serve_manager (s : System) (out : Outcome) : (serve s out).core.manager = out.1 :=
  (performAll_extends out.2 { s.core with manager := out.1 }).manager

def visible (hmac : Hmac) (s s' : System) (op : Operation) : Outcome :=
  (s'.core.manager, emitted hmac s op)

theorem heard_unchanged {hmac : Hmac} {s s' : System} {op : Operation} (c : Cached)
    (hp : published s'.core.manager = published s.core.manager)
    (hl : lastSeen c.property (emitted hmac s op) = none) :
    Heard c s.core.manager (visible hmac s s' op) := by
  refine (heard_silent hl).mpr ?_
  show c.value (published s'.core.manager) = _
  rw [hp]

/-- A step tells clients of every change, unless it is an attempt that is not
announced, which leaves them with the old end of the rate limit. -/
theorem step_heard {hmac : Hmac} {s s' : System} {op : Operation} (hk : History s)
    (h : Loaded s.core) (hs : step hmac s op = some s') :
    Heard expiryTime s.core.manager (visible hmac s s' op) ∧
      (Heard rateLimitEndTime s.core.manager (visible hmac s s' op) ↔ Announced hmac s op) ∧
      (Told rateLimitEndTime s.core.manager (visible hmac s s' op) ↔ Announced hmac s op) := by
  have hall (ha : Announced hmac s op)
      (hc : ∀ c ∈ cached, Heard c s.core.manager (visible hmac s s' op)) :
      Heard expiryTime s.core.manager (visible hmac s s' op) ∧
        (Heard rateLimitEndTime s.core.manager (visible hmac s s' op) ↔ Announced hmac s op) ∧
        (Told rateLimitEndTime s.core.manager (visible hmac s s' op) ↔ Announced hmac s op) := by
    obtain ⟨hx,hr⟩ := forall_cached.mp hc
    exact ⟨hx,iff_of_true hr ha,iff_of_true (told_of_heard hr) ha⟩
  cases op with
  | core op =>
    apply hall trivial
    intro c _
    exact heard_unchanged c (core_published h hs) (callback_silent h op c.property)
  | addCode codeStr =>
    cases hs
    have hv : visible hmac s _ (.addCode codeStr) =
        (addCode hmac s.core.manager s.core.clock codeStr).2 :=
      Prod.ext (serve_manager s (addCode hmac s.core.manager s.core.clock codeStr).2) rfl
    rw [hv]
    exact ⟨addCode_expiryTime_heard hmac _ _ codeStr,
      addCode_rateLimit_heard hmac _ _ codeStr hk.endTime⟩
  | clearCode =>
    cases hs
    apply hall trivial
    have hv : visible hmac s _ .clearCode = (clearCode s.core.manager s.core.clock).2 :=
      Prod.ext (serve_manager s (clearCode s.core.manager s.core.clock).2) rfl
    rw [hv]
    exact clearCode_heard _ _
  | wallclockTimeChanged delta =>
    cases hs
    apply hall trivial
    have hv : visible hmac s _ (.wallclockTimeChanged delta) =
        wallclockTimeChanged s.core.manager s.core.clock delta :=
      Prod.ext (serve_manager s (wallclockTimeChanged s.core.manager s.core.clock delta)) rfl
    rw [hv]
    exact wallclockTimeChanged_heard _ _ delta
  | checkExpired =>
    cases hs
    apply hall trivial
    have hv : visible hmac s _ .checkExpired =
        (s.core.manager,(checkExpiredCb s.core.manager s.core.clock).2) :=
      Prod.ext (serve_manager s (s.core.manager,(checkExpiredCb s.core.manager s.core.clock).2))
        rfl
    rw [hv]
    exact fun c _ => checkExpiredCb_heard _ _ c
  | shutdown =>
    cases hs
    apply hall trivial
    exact fun c _ => heard_unchanged c (startShutdown_published s) rfl

@[ext]
structure Client where
  expiryTime : UInt64
  rateLimitEndTime : UInt64
  deriving DecidableEq

def reads (self : EpgManager) : Client where
  expiryTime := getExpiryTime self
  rateLimitEndTime := getRateLimitEndTime self

def hear (c : Cached) (held : UInt64) (effects : List Effect) : UInt64 :=
  ((lastSeen c.property effects).map c.value).getD held

def hears (client : Client) (effects : List Effect) : Client where
  expiryTime := hear expiryTime client.expiryTime effects
  rateLimitEndTime := hear rateLimitEndTime client.rateLimitEndTime effects

def watch (hmac : Hmac) (p : System × Client) (op : Operation) : Option (System × Client) :=
  (step hmac p.1 op).map (fun s => (s,hears p.2 (emitted hmac p.1 op)))

def Agrees (p : System × Client) : Prop := p.2 = reads p.1.core.manager

theorem hear_eq_iff (c : Cached) (before : EpgManager) (out : Outcome) :
    hear c (c.value (published before)) out.2 = c.value (published out.1) ↔
      Heard c before out := by
  unfold hear Heard
  cases lastSeen c.property out.2 with
  | none => exact eq_comm
  | some seen => exact Iff.rfl

theorem watch_some {hmac : Hmac} {p p' : System × Client} {op : Operation}
    (hs : watch hmac p op = some p') :
    step hmac p.1 op = some p'.1 ∧ p'.2 = hears p.2 (emitted hmac p.1 op) := by
  obtain ⟨s',hstep,rfl⟩ := Option.map_eq_some_iff.mp hs
  exact ⟨hstep,rfl⟩

theorem step_agrees_iff {hmac : Hmac} {p p' : System × Client} {op : Operation}
    (hk : History p.1) (hl : Loaded p.1.core) (h : Agrees p) (hs : watch hmac p op = some p') :
    Agrees p' ↔ Announced hmac p.1 op := by
  obtain ⟨hstep,hclient⟩ := watch_some hs
  obtain ⟨hx,hr,-⟩ := step_heard hk hl hstep
  have hboth : Agrees p' ↔ Heard expiryTime p.1.core.manager (visible hmac p.1 p'.1 op) ∧
      Heard rateLimitEndTime p.1.core.manager (visible hmac p.1 p'.1 op) := by
    rw [← hear_eq_iff,← hear_eq_iff,Agrees,hclient,h,Client.ext_iff]
    exact Iff.rfl
  rw [hboth,hr]
  exact and_iff_right hx

/-- For every run of a manager from its construction to a state in which it is
initialised: a step tells clients of every change of the two properties exactly
when it is not an attempt that moves the end of the rate limit unannounced, and
on every run from there a client that reads the properties first agrees with
them in every state exactly when no step is such an attempt. -/
theorem clients_told_iff (hmac : Hmac) (enabled : Bool) (clock : EpgClock) (files : Directory)
    (ops : List Operation) (s : System)
    (hr : run (step hmac) ops (constructed enabled clock files) = some s)
    (hi : Initialised s.core) :
    (∀ op s', step hmac s op = some s' →
      ((∀ c ∈ cached, Told c s.core.manager (visible hmac s s' op)) ↔ Announced hmac s op)) ∧
    ∀ later p, run (watch hmac) later (s,reads s.core.manager) = some p →
      (Stays (watch hmac) Agrees later (s,reads s.core.manager) ↔
        Along (watch hmac) (fun p => Announced hmac p.1) later (s,reads s.core.manager)) := by
  have hk := run_history hmac enabled clock files ops s hr
  have hl := run_loaded hmac enabled clock files ops s hr hi
  constructor
  · intro op s' hs
    obtain ⟨hx,-,ht⟩ := step_heard hk hl hs
    rw [forall_cached,ht]
    exact and_iff_right (told_of_heard hx)
  · intro later p hp
    refine stays_iff_along_of_invariant
      (J := fun p => History p.1 ∧ Loaded p.1.core) ?_ ?_ ⟨hk,hl⟩ rfl hp
    · intro p op p' hj hs
      have hstep := (watch_some hs).1
      exact ⟨step_history hmac p.1 op p'.1 hj.1 hstep,step_loaded hj.2 hstep⟩
    · intro p op p' hj h hs
      exact step_agrees_iff hj.1 hj.2 h hs

def nineWrong : List Operation := startUp++List.replicate 9 (.addCode [])

instance (hmac : Hmac) (s : System) (op : Operation) : Decidable (Announced hmac s op) :=
  match op with
  | .addCode _ => inferInstanceAs (Decidable (_ → _ → _ → _))
  | .core _ => isTrue trivial
  | .clearCode => isTrue trivial
  | .wallclockTimeChanged _ => isTrue trivial
  | .checkExpired => isTrue trivial
  | .shutdown => isTrue trivial

def twoAttempts : List Operation := [.addCode [], .addCode fiveSeconds]

theorem clients_told_iff_start :
    ∃ s p, run (step zeroHmac) startUp justStarted = some s ∧
      run (watch zeroHmac) twoAttempts (s,reads s.core.manager) = some p ∧
      p.2 = ⟨3005, 0⟩ ∧ Stays (watch zeroHmac) Agrees twoAttempts (s,reads s.core.manager) := by
  have h : (run (step zeroHmac) startUp justStarted).any (fun s => initialised s.core ∧
      ((run (watch zeroHmac) twoAttempts (s,reads s.core.manager)).any (fun p => p.2 = ⟨3005, 0⟩)) ∧
      Along (watch zeroHmac) (fun p => Announced zeroHmac p.1) twoAttempts
        (s,reads s.core.manager)) = true := by decide +kernel
  obtain ⟨s,hs,hd⟩ := (Option.any_eq_true _ _).mp h
  obtain ⟨hi,hp,ha⟩ := of_decide_eq_true hd
  obtain ⟨p,hp,hclient⟩ := (Option.any_eq_true _ _).mp hp
  exact ⟨s,p,hs,hp,of_decide_eq_true hclient,
    ((clients_told_iff zeroHmac true ⟨3000, 0, true⟩ keyOnly startUp s hs
      (initialised_of hi)).2 _ _ hp).mpr ha⟩

/-- The tenth wrong string sets the end of the rate limit, and no one is told. -/
theorem tenth_attempt_untold :
    ∃ s s', run (step zeroHmac) nineWrong justStarted = some s ∧ Initialised s.core ∧
      s.core.manager.enabled = true ∧ step zeroHmac s (.addCode []) = some s' ∧
      getRateLimitEndTime s.core.manager = 0 ∧ getRateLimitEndTime s'.core.manager = 4800 ∧
      emitted zeroHmac s (.addCode []) = [] ∧
      ¬Told rateLimitEndTime s.core.manager (visible zeroHmac s s' (.addCode [])) := by
  have h : (run (step zeroHmac) nineWrong justStarted).any (fun s =>
      initialised s.core && s.core.manager.enabled &&
        decide (getRateLimitEndTime s.core.manager = 0) &&
        (step zeroHmac s (.addCode [])).any (fun s' =>
          decide (getRateLimitEndTime s'.core.manager = 4800)) &&
        decide (emitted zeroHmac s (.addCode []) = [])) = true := by decide +kernel
  obtain ⟨s,hs,hp⟩ := (Option.any_eq_true _ _).mp h
  simp only [Bool.and_eq_true,decide_eq_true_iff] at hp
  obtain ⟨⟨⟨⟨hi,he⟩,hzero⟩,hstep⟩,hnone⟩ := hp
  obtain ⟨s',hs',hend⟩ := (Option.any_eq_true _ _).mp hstep
  have hend' : getRateLimitEndTime s'.core.manager = 4800 := of_decide_eq_true hend
  refine ⟨s,s',hs,initialised_of hi,he,hs',hzero,hend',hnone,fun ht => ?_⟩
  have hne : getRateLimitEndTime s'.core.manager ≠ getRateLimitEndTime s.core.manager := by
    rw [hend',hzero]
    decide
  obtain ⟨seen,hseen,-⟩ := ht hne
  have hsilent : lastSeen .rateLimitEndTime (emitted zeroHmac s (.addCode [])) = none := by
    rw [hnone]
    rfl
  exact absurd (hseen.symm.trans hsilent) (Option.some_ne_none seen)

end EosPayg.ClientProperties
