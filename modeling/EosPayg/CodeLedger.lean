import EosPayg.ManagerCode
import EosPayg.TokenLedger

/-!
# Entering codes simulates a ledger of used codes

The used codes and the expiry time of a manager form a ledger whose tokens are
pairs of counter and period. A run of attempts answers and ends as the ledger
does on what those attempts present: the pair behind a valid, correctly signed
code string, or nothing when the attempt was rate-limited.
-/

set_option autoImplicit false

namespace EosPayg.CodeLedger
open EosPayg.WordArithmetic EosPayg.PaygCodes EosPayg.ManagerState EosPayg.ManagerCode
  EosPayg.TokenLedger

structure Attempt where
  clock : EpgClock
  codeStr : List UInt8
  deriving DecidableEq

def addCodes (hmac : Hmac) :
    List Attempt → EpgManager → List (Except ProviderError ℕ) × EpgManager
  | [], self => ([],self)
  | a::as, self =>
    let first := addCode hmac self a.clock a.codeStr
    let rest := addCodes hmac as first.2.1
    (first.1::rest.1,rest.2)

def seconds (c : UsedCode) : ℕ := (spanSecs c.period).toNat

def endOfTime : ℕ := 18446744073709551615

def ledgerOf (self : EpgManager) : Ledger UsedCode :=
  ⟨self.usedCodes.codes.toFinset, self.expiryTimeSecs.toNat⟩

def verifiedCode (hmac : Hmac) (key codeStr : List UInt8) : Option UsedCode :=
  if ValidCodeString codeStr then
    match epcVerifyCode hmac (UInt32.ofNat (decimalValue codeStr)) key with
    | .ok (period,counter) => some ⟨counter, period⟩
    | .error _ => none
  else none

/-- What an attempt presents to the ledger, given what it returned. -/
def presented (hmac : Hmac) (key : List UInt8) (a : Attempt) (r : Except ProviderError ℕ) :
    Entry UsedCode where
  now := a.clock.time.toNat
  token := if r = .error tooManyAttemptsError then none else verifiedCode hmac key a.codeStr

theorem verifiedCode_some_iff (hmac : Hmac) (key s : List UInt8) (used : UsedCode) :
    verifiedCode hmac key s = some used ↔ ∃ code, epcParseCode s = .ok code ∧
      epcVerifyCode hmac code key = .ok (used.period,used.counter) := by
  unfold verifiedCode
  by_cases hs : ValidCodeString s
  · have hp : ∀ code, epcParseCode s = .ok code ↔ code = UInt32.ofNat (decimalValue s) := by
      intro code
      rw [epcParseCode_ok_iff]
      exact and_iff_right hs
    simp only [hs,if_true,hp,exists_eq_left]
    cases hv : epcVerifyCode hmac (UInt32.ofNat (decimalValue s)) key with
    | error e => simp
    | ok pc =>
      cases used
      simp [Prod.ext_iff,and_comm,eq_comm]
  · have hp : ∀ code, epcParseCode s ≠ .ok code := by
      intro code h
      exact hs ((epcParseCode_ok_iff s code).mp h).1
    simp [hs,hp]

theorem acceptedCode_iff (hmac : Hmac) (self : EpgManager) (clock : EpgClock)
    (s : List UInt8) (used : UsedCode) :
    acceptedCode hmac self clock s = some used ↔
      (self.enabled = true ∧ self.cancelled = false ∧
        attemptsInLastPeriod self.rateLimiting clock.time < rateLimitingNAttempts) ∧
      verifiedCode hmac self.keyBytes s = some used ∧ used ∉ self.usedCodes.codes := by
  unfold acceptedCode
  by_cases hc : self.enabled = true ∧ self.cancelled = false ∧
      attemptsInLastPeriod self.rateLimiting clock.time < rateLimitingNAttempts
  · have hk := checkCode_ok_iff hmac self s used
    rw [if_pos hc,verifiedCode_some_iff]
    simp only [hc,true_and]
    cases h : checkCode hmac self s with
    | error e =>
      rw [h] at hk
      simp only [Except.toOption,reduceCtorEq,false_iff] at hk ⊢
      rintro ⟨⟨code,hp,hv⟩,hn⟩
      exact hk ⟨code,hp,hv,hn⟩
    | ok u =>
      rw [h] at hk
      simp only [Except.toOption,Except.ok.injEq,Option.some.injEq] at hk ⊢
      rw [hk]
      constructor
      · rintro ⟨code,hp,hv,hn⟩
        exact ⟨⟨code,hp,hv⟩,hn⟩
      · rintro ⟨⟨code,hp,hv⟩,hn⟩
        exact ⟨code,hp,hv,hn⟩
  · rw [if_neg hc]
    simp [hc]

theorem limited_result (hmac : Hmac) (self : EpgManager) (clock : EpgClock) (s : List UInt8)
    (he : self.enabled = true) :
    (addCode hmac self clock s).1 ≠ .error tooManyAttemptsError ↔
      attemptsInLastPeriod self.rateLimiting clock.time < rateLimitingNAttempts := by
  rw [Ne,addCode_limited_iff hmac self clock s he,Nat.not_le]

theorem baseSecs_toNat (self : EpgManager) (now : UInt64) :
    (baseSecs self now).toNat = max now.toNat self.expiryTimeSecs.toNat := by
  unfold baseSecs
  split_ifs with h
  · have := UInt64.lt_iff_toNat_lt.mp h
    omega
  · have := UInt64.le_iff_toNat_le.mp (UInt64.not_lt.mp h)
    omega

theorem credited_ledger (hmac : Hmac) (self : EpgManager) (clock : EpgClock)
    (s : List UInt8) (used : UsedCode) (hs : clock.sourceNewSeconds = true)
    (h : acceptedCode hmac self clock s = some used) :
    ledgerOf (addCode hmac self clock s).2.1 =
      credit seconds endOfTime (ledgerOf self) clock.time.toNat used := by
  have hx : (expiryAfter clock (baseSecs self clock.time) (spanSecs used.period)).toNat =
      min endOfTime (max clock.time.toNat self.expiryTimeSecs.toNat+seconds used) := by
    rw [expiryAfter_of_source clock _ _ hs,saturatingAdd_toNat,baseSecs_toNat,min_comm]
    rfl
  have hm : (gArraySort (self.usedCodes.codes ++ [used])).codes.toFinset =
      insert used self.usedCodes.codes.toFinset := by
    apply Finset.ext
    intro c
    simp [or_comm]
  rw [addCode_accepted_state hmac self clock s used h]
  simp only [ledgerOf,credit,hx,hm]

/-- One attempt is one offer to the ledger. -/
theorem addCode_offer (hmac : Hmac) (self : EpgManager) (a : Attempt)
    (he : self.enabled = true) (hn : self.cancelled = false)
    (hs : a.clock.sourceNewSeconds = true) :
    let r := addCode hmac self a.clock a.codeStr
    let o := offer seconds endOfTime (ledgerOf self) (presented hmac self.keyBytes a r.1)
    ledgerOf r.2.1 = o.2 ∧ r.1.toOption = o.1.map (fun c => timeAdded c.period) := by
  intro r o
  have hl : r.1 ≠ .error tooManyAttemptsError ↔ _ :=
    limited_result hmac self a.clock a.codeStr he
  cases h : acceptedCode hmac self a.clock a.codeStr with
  | some used =>
    obtain ⟨hc,hv,hu⟩ := (acceptedCode_iff hmac self a.clock a.codeStr used).mp h
    have ho : o = (some used,
        credit seconds endOfTime (ledgerOf self) a.clock.time.toNat used) := by
      have hu' : used ∉ (ledgerOf self).spent := by simpa [ledgerOf] using hu
      show offer seconds endOfTime (ledgerOf self) _ = _
      rw [offer,presented,if_neg (hl.mpr hc.2.2),hv]
      exact if_neg hu'
    constructor
    · rw [ho]
      exact credited_ledger hmac self a.clock a.codeStr used hs h
    · rw [ho]
      show (addCode hmac self a.clock a.codeStr).1.toOption = _
      rw [addCode_accepted hmac self a.clock a.codeStr used h]
      rfl
  | none =>
    have ho : o = (none,ledgerOf self) := by
      show offer seconds endOfTime (ledgerOf self) _ = _
      rw [offer,presented]
      by_cases hr : r.1 = .error tooManyAttemptsError
      · rw [if_pos hr]
      · rw [if_neg hr]
        cases hv : verifiedCode hmac self.keyBytes a.codeStr with
        | none => rfl
        | some used =>
          have hu : used ∈ (ledgerOf self).spent := by
            by_contra hu
            have := (acceptedCode_iff hmac self a.clock a.codeStr used).mpr
              ⟨⟨he,hn,hl.mp hr⟩,hv,by simpa [ledgerOf] using hu⟩
            rw [h] at this
            cases this
          exact if_pos hu
    obtain ⟨⟨e,hr⟩,hst⟩ := addCode_refused hmac self a.clock a.codeStr h
    constructor
    · rw [ho]
      show ledgerOf (addCode hmac self a.clock a.codeStr).2.1 = _
      rw [hst,if_pos he]
      rfl
    · rw [ho]
      show (addCode hmac self a.clock a.codeStr).1.toOption = _
      rw [hr]
      rfl

def entriesOf (hmac : Hmac) (key : List UInt8) (as : List Attempt)
    (results : List (Except ProviderError ℕ)) : List (Entry UsedCode) :=
  List.zipWith (presented hmac key) as results

theorem addCodes_offers (hmac : Hmac) (as : List Attempt) (self : EpgManager)
    (he : self.enabled = true) (hn : self.cancelled = false)
    (hs : ∀ a ∈ as, a.clock.sourceNewSeconds = true) :
    let out := addCodes hmac as self
    let led := offers seconds endOfTime (entriesOf hmac self.keyBytes as out.1) (ledgerOf self)
    ledgerOf out.2 = led.2 ∧
      out.1.map Except.toOption = led.1.map (Option.map (fun c => timeAdded c.period)) := by
  induction as generalizing self with
  | nil => exact ⟨rfl,rfl⟩
  | cons a as ih =>
    intro out led
    obtain ⟨h1,h2⟩ := addCode_offer hmac self a he hn (hs a (by simp))
    obtain ⟨ke,kn,kk⟩ := addCode_settings hmac self a.clock a.codeStr
    obtain ⟨i1,i2⟩ := ih (addCode hmac self a.clock a.codeStr).2.1 (ke.trans he)
      (kn.trans hn) (fun b hb => hs b (by simp [hb]))
    rw [kk,h1] at i1 i2
    exact ⟨i1,congrArg₂ List.cons h2 i2⟩

/-- Every run of attempts on an enabled manager answers and ends as the ledger
does. So no pair is credited twice or after it was used, no pair leaves the
used codes, and these are sorted at the end of every run. -/
theorem simulates_ledger (hmac : Hmac) (self : EpgManager) (as : List Attempt)
    (he : self.enabled = true) (hn : self.cancelled = false)
    (hs : ∀ a ∈ as, a.clock.sourceNewSeconds = true) :
    let out := addCodes hmac as self
    let led := offers seconds endOfTime (entriesOf hmac self.keyBytes as out.1) (ledgerOf self)
    ledgerOf out.2 = led.2 ∧
      out.1.map Except.toOption = led.1.map (Option.map (fun c => timeAdded c.period)) ∧
      (credited led.1).Nodup ∧ (∀ c ∈ credited led.1, c ∉ self.usedCodes.codes) ∧
      (∀ c, c ∈ out.2.usedCodes.codes ↔ c ∈ self.usedCodes.codes ∨ c ∈ credited led.1) ∧
      out.2.usedCodes.codes.Pairwise UsedCode.Ordered := by
  intro out led
  obtain ⟨h1,h2⟩ := addCodes_offers hmac as self he hn hs
  obtain ⟨hd,hf⟩ := @credited_nodup _ _ seconds endOfTime
    (entriesOf hmac self.keyBytes as out.1) (ledgerOf self)
  have hu : (ledgerOf out.2).spent = (ledgerOf self).spent ∪ (credited led.1).toFinset := by
    rw [h1]
    exact offers_spent _ _
  refine ⟨h1,h2,hd,?_,?_,out.2.usedCodes.sorted⟩
  · intro c hc hm
    exact hf c hc (by simpa [ledgerOf] using hm)
  · intro c
    have := congrArg (fun s => c ∈ s) hu
    simpa [ledgerOf] using this

def replay : List Attempt :=
  List.replicate 2 ⟨⟨2000, 0, true⟩, fiveSeconds⟩

theorem simulates_ledger_replay :
    (addCodes zeroHmac replay freshManager).1 = [.ok 5, .error codeAlreadyUsedError] ∧
      ledgerOf (addCodes zeroHmac replay freshManager).2 =
        (offers seconds endOfTime (entriesOf zeroHmac freshManager.keyBytes replay
          (addCodes zeroHmac replay freshManager).1) (ledgerOf freshManager)).2 :=
  ⟨by decide +kernel,(simulates_ledger zeroHmac freshManager replay rfl rfl (by decide)).1⟩

end EosPayg.CodeLedger
