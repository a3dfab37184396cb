import EosPayg.CodeLedger

/-!
# What a call to add a code leaves behind

A call that fails changes nothing a user pays for: not the expiry time, its
timer or the used codes, and no save is started. A call that succeeds has used
the code up. The time it stands for is then added if the new expiry time can be
watched by a timer, or needs none because it is the end of time.
-/

set_option autoImplicit false

namespace EosPayg.AddCodeOutcome
open EosPayg.WordArithmetic EosPayg.PaygCodes EosPayg.ManagerState EosPayg.ManagerCode
  EosPayg.CodeLedger

def quiet : Effect → Bool
  | .sourceDestroy => false
  | .sourceAttach _ => false
  | .save _ _ => false
  | _ => true

structure Untouched (before : EpgManager) (out : Outcome) : Prop where
  expiryTimeSecs : out.1.expiryTimeSecs = before.expiryTimeSecs
  usedCodes : out.1.usedCodes = before.usedCodes
  expiry : out.1.expiry = before.expiry
  savesPending : out.1.pendingInternalSaveStateCalls = before.pendingInternalSaveStateCalls
  effects : out.2.all quiet = true

structure Credited (before : EpgManager) (nowSecs : UInt64) (used : UsedCode)
    (after : EpgManager) : Prop where
  usedCodes : after.usedCodes = gArraySort (before.usedCodes.codes ++ [used])
  expiryTimeSecs : after.expiryTimeSecs.toNat =
    min endOfTime (max nowSecs.toNat before.expiryTimeSecs.toNat+seconds used)

/-- A failed call leaves everything as it was, if the manager is disabled even
the history of attempts, and returns no time; a successful one has credited the
code the string stands for. -/
def AllOrNothing (hmac : Hmac) (self : EpgManager) (clock : EpgClock) (codeStr : List UInt8) :
    Prop :=
  match addCode hmac self clock codeStr with
  | (.error e, out) => Untouched self out ∧ (e = disabledError → out.1 = self)
  | (.ok _, out) => ∃ code used, epcParseCode codeStr = .ok code ∧
      epcVerifyCode hmac code self.keyBytes = .ok (used.period,used.counter) ∧
      Credited self clock.time used out.1

/-- The new expiry time gets its timer, or is the end of time. -/
def Watchable (self : EpgManager) (clock : EpgClock) (used : UsedCode) : Prop :=
  clock.sourceNewSeconds = true ∨
    endOfTime ≤ max clock.time.toNat self.expiryTimeSecs.toNat+seconds used

theorem seconds_pos (used : UsedCode) : 0 < seconds used := by
  have h : ∀ p ∈ EpcPeriod.all, 0 < (spanSecs p).toNat := by decide
  exact h used.period used.period.mem_all

theorem refused_untouched (hmac : Hmac) (self : EpgManager) (clock : EpgClock)
    (s : List UInt8) (h : acceptedCode hmac self clock s = none) :
    AllOrNothing hmac self clock s := by
  obtain ⟨e,ho⟩ := addCode_refused_outcome hmac self clock s h
  have hquiet : (addCode hmac self clock s).2.2.all quiet = true := by
    rcases addCode_refused_effects hmac self clock s h with hn | hn <;> rw [hn] <;> rfl
  by_cases he : self.enabled = true
  · have hne := addCode_not_disabled hmac self clock s he
    rw [if_pos he] at ho
    rw [ho] at hne hquiet
    rw [AllOrNothing,ho]
    exact ⟨⟨rfl,rfl,rfl,rfl,hquiet⟩,fun hd => absurd (congrArg Except.error hd) hne⟩
  · rw [if_neg he] at ho
    rw [ho] at hquiet
    rw [AllOrNothing,ho]
    exact ⟨⟨rfl,rfl,rfl,rfl,hquiet⟩,fun _ => rfl⟩

theorem credited_iff (self : EpgManager) (clock : EpgClock) (used : UsedCode) :
    (expiryAfter clock (baseSecs self clock.time) (spanSecs used.period)).toNat =
        min endOfTime (max clock.time.toNat self.expiryTimeSecs.toNat+seconds used) ↔
      Watchable self clock used := by
  have hpos := seconds_pos used
  have hm : maxWord.toNat = endOfTime := rfl
  have hb := word_lt (baseSecs self clock.time)
  have hn := baseSecs_toNat self clock.time
  have hs : (spanSecs used.period).toNat = seconds used := rfl
  rw [expiryAfter_toNat,hm,hs,hn,Watchable]
  rw [hn] at hb
  generalize max clock.time.toNat self.expiryTimeSecs.toNat = base at hb ⊢
  split_ifs with h
  · exact iff_of_true rfl h
  · refine iff_of_false ?_ h
    have : ¬endOfTime ≤ base+seconds used := fun hh => h (Or.inr hh)
    omega

theorem accepted_iff (hmac : Hmac) (self : EpgManager) (clock : EpgClock) (s : List UInt8)
    (used : UsedCode) (h : acceptedCode hmac self clock s = some used) :
    AllOrNothing hmac self clock s ↔ Watchable self clock used := by
  have hcheck := (acceptedCode_some h).2.2.2
  obtain ⟨code,hparse,hverify,-⟩ := (checkCode_ok_iff hmac self s used).mp hcheck
  have hout := addCode_accepted hmac self clock s used h
  have hstate := addCode_accepted_state hmac self clock s used h
  rw [hout] at hstate
  rw [← credited_iff,AllOrNothing,hout]
  constructor
  · rintro ⟨code',used',hparse',hverify',hcredit⟩
    rw [hparse] at hparse'
    cases hparse'
    rw [hverify] at hverify'
    have hused : used' = used := by
      cases used
      cases used'
      cases hverify'
      rfl
    have he := hcredit.expiryTimeSecs
    rw [hused] at he
    exact (congrArg (fun m => m.expiryTimeSecs.toNat) hstate).symm.trans he
  · intro he
    refine ⟨code,used,hparse,hverify,?_,?_⟩
    · exact congrArg EpgManager.usedCodes hstate
    · exact (congrArg (fun m => m.expiryTimeSecs.toNat) hstate).trans he

/-- For every state, string, clock and key: a call to add a code is all or
nothing exactly when the code, should it pass every check, gives an expiry time
that can be watched, by a timer or because it is the end of time. -/
theorem add_code_all_or_nothing_iff (hmac : Hmac) (self : EpgManager) (clock : EpgClock)
    (codeStr : List UInt8) :
    AllOrNothing hmac self clock codeStr ↔
      ∀ used, acceptedCode hmac self clock codeStr = some used → Watchable self clock used := by
  cases h : acceptedCode hmac self clock codeStr with
  | none =>
    exact iff_of_true (refused_untouched hmac self clock codeStr h)
      (fun used hu => absurd hu.symm (Option.some_ne_none used))
  | some used =>
    rw [accepted_iff hmac self clock codeStr used h]
    constructor
    · rintro hw u ⟨⟩
      exact hw
    · exact fun hw => hw used rfl

def timerless : EpgClock := ⟨2000, 0, false⟩

/-- A code for which no timer can be had: the call succeeds and the code is used
up, and the expiry time is the current second. -/
theorem add_code_without_timer :
    (addCode zeroHmac freshManager timerless fiveSeconds).1 = .ok 5 ∧
      (addCode zeroHmac freshManager timerless fiveSeconds).2.1.usedCodes.codes =
        [⟨1, .period5Seconds⟩] ∧
      (addCode zeroHmac freshManager timerless fiveSeconds).2.1.expiryTimeSecs = 2000 ∧
      ¬AllOrNothing zeroHmac freshManager timerless fiveSeconds := by
  have h : acceptedCode zeroHmac freshManager timerless fiveSeconds =
      some ⟨1, .period5Seconds⟩ := by decide +kernel
  refine ⟨by decide +kernel,by decide +kernel,by decide +kernel,?_⟩
  rw [accepted_iff _ _ _ _ _ h,Watchable]
  decide

end EosPayg.AddCodeOutcome
