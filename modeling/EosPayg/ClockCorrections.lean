import EosPayg.CreditBalance
import EosPayg.ServiceShutdown

/-!
# The wall clock is corrected while the machine runs

The service learns of a jump of the wall clock when the main loop comes to it, from
whole seconds of the two clocks: several jumps may have become one by then, and rounding
may show a jump where there was none. Each is charged to the credit when it is forward.
-/

set_option autoImplicit false

namespace EosPayg.ClockCorrections
open EosPayg.PaygCodes EosPayg.ManagerState EosPayg.ManagerCode EosPayg.ManagerFiles
  EosPayg.WordArithmetic EosPayg.GuardedRun EosPayg.CreditBalance
open EosPayg.ExpiryTimer (nsecPerSec)
open EosPayg.ServiceShutdown (Readings clockJumpDelta clockJumpCb clockJumpCb_readings
  clockJumpCb_manager)

/-- Times of the kernel are nanoseconds in a signed word. -/
def ktimeMax : ℕ := 9223372036854775807

def getClockSeconds (nsecs : ℕ) : Int64 := Int64.ofNat (nsecs/nsecPerSec)

/-- The service's manager and readings, both clocks, and whether the wall clock was set
since the source of jumps was dispatched. The account has the seconds charged, the
nanoseconds by which the wall clock was ever set forward and the dispatches. -/
structure System where
  manager : EpgManager
  boottime : ℕ
  realtime : ℕ
  clockSecsV0 : Readings
  pending : Bool
  charged : ℕ
  setForward : ℕ
  dispatched : ℕ

def readings (boottime realtime : ℕ) : Readings :=
  ⟨getClockSeconds realtime, getClockSeconds boottime⟩

def clockAt (boottime realtime : ℕ) (sourceNewSeconds : Bool) : EpgClock :=
  ⟨UInt64.ofNat (boottime/nsecPerSec), UInt64.ofNat (realtime/nsecPerSec), sourceNewSeconds⟩

def started (manager : EpgManager) (boottime realtime : ℕ) : System where
  manager := manager
  boottime := boottime
  realtime := realtime
  clockSecsV0 := readings boottime realtime
  pending := false
  charged := 0
  setForward := 0
  dispatched := 0

def System.delta (s : System) : Int64 :=
  clockJumpDelta s.clockSecsV0 (readings s.boottime s.realtime)

def System.clockJump (s : System) (sourceNewSeconds : Bool) : System :=
  let called := clockJumpCb s.manager (clockAt s.boottime s.realtime sourceNewSeconds)
    s.clockSecsV0 (readings s.boottime s.realtime)
  { s with
    manager := called.1.1
    clockSecsV0 := called.2
    pending := false
    charged := s.charged+s.delta.toInt.toNat
    dispatched := s.dispatched+1 }

inductive Operation where
  | timePasses (nsecs : ℕ)
  | setTime (realtime : ℕ)
  | clockJump (sourceNewSeconds : Bool)
  | failedAddCode (codeStr : List UInt8)

/-- Both clocks go on at one pace. The source may also be dispatched when the wall clock
was not set, as when the machine wakes up. -/
def step (hmac : Hmac) (s : System) : Operation → Option System
  | .timePasses nsecs =>
    if s.boottime+nsecs ≤ ktimeMax ∧ s.realtime+nsecs ≤ ktimeMax then
      some { s with boottime := s.boottime+nsecs, realtime := s.realtime+nsecs }
    else none
  | .setTime realtime =>
    if realtime ≤ ktimeMax then
      some { s with
        realtime := realtime
        pending := true
        setForward := s.setForward+(realtime-s.realtime) }
    else none
  | .clockJump sourceNewSeconds => some (s.clockJump sourceNewSeconds)
  | .failedAddCode codeStr =>
    let added := addCode hmac s.manager (clockAt s.boottime s.realtime true) codeStr
    if added.1.toOption = none then some { s with manager := added.2.1 } else none

def TimerMade : Operation → Prop
  | .clockJump sourceNewSeconds => sourceNewSeconds = true
  | _ => True

def NotPutBack (s : System) : Operation → Prop
  | .clockJump _ => 0 ≤ s.delta.toInt
  | _ => True

def System.credit (s : System) : ℕ := remaining s.manager (UInt64.ofNat (s.boottime/nsecPerSec))

theorem getClockSeconds_toInt (nsecs : ℕ) (h : nsecs ≤ ktimeMax) :
    (getClockSeconds nsecs).toInt = (nsecs/nsecPerSec : ℕ) :=
  Int64.toInt_ofNat_of_lt ((Nat.div_le_self _ _).trans_lt (Nat.lt_succ_of_le h))

theorem clockSeconds_toNat (nsecs : ℕ) (h : nsecs ≤ ktimeMax) :
    (UInt64.ofNat (nsecs/nsecPerSec)).toNat = nsecs/nsecPerSec :=
  UInt64.toNat_ofNat_of_lt' ((Nat.div_le_self _ _).trans_lt (h.trans_lt (by decide)))

def ahead (boottime realtime : ℕ) : ℤ := (realtime/nsecPerSec : ℕ)-(boottime/nsecPerSec : ℕ)

theorem clockJumpDelta_toInt {b r b' r' : ℕ} (hb : b ≤ ktimeMax) (hr : r ≤ ktimeMax)
    (hb' : b' ≤ ktimeMax) (hr' : r' ≤ ktimeMax) :
    (clockJumpDelta (readings b r) (readings b' r')).toInt = ahead b' r'-ahead b r := by
  have hm : ktimeMax = 9223372036854775807 := rfl
  have hn : nsecPerSec = 1000000000 := rfl
  unfold clockJumpDelta readings ahead
  rw [Int64.toInt_sub,Int64.toInt_sub,Int64.toInt_sub,getClockSeconds_toInt _ hb,
    getClockSeconds_toInt _ hr,getClockSeconds_toInt _ hb',getClockSeconds_toInt _ hr',hn]
  have hreal : Int.bmod ((r'/1000000000 : ℕ)-(r/1000000000 : ℕ)) (2^64) =
      (r'/1000000000 : ℕ)-(r/1000000000 : ℕ) := Int.bmod_eq_of_le (by omega) (by omega)
  have hboot : Int.bmod ((b'/1000000000 : ℕ)-(b/1000000000 : ℕ)) (2^64) =
      (b'/1000000000 : ℕ)-(b/1000000000 : ℕ) := Int.bmod_eq_of_le (by omega) (by omega)
  rw [hreal,hboot,Int.bmod_eq_of_le (by omega) (by omega)]
  omega

theorem jump_remaining (self : EpgManager) (clock : EpgClock) (delta : Int64) :
    remaining (wallclockTimeChanged self clock delta).1 clock.time ≤
        remaining self clock.time-delta.toInt.toNat ∧
      (clock.sourceNewSeconds = true →
        remaining (wallclockTimeChanged self clock delta).1 clock.time =
          remaining self clock.time-delta.toInt.toNat) := by
  by_cases hp : 0 < delta ∧ clock.time < self.expiryTimeSecs
  · obtain ⟨hpos,ht⟩ := hp
    have hne : delta ≠ 0 := by
      rintro rfl
      exact absurd hpos (by decide)
    have hint := toUInt64_toNat delta hpos
    have hspan := spanAfterJump_toNat self clock delta.toUInt64 ht
    have hword := word_lt self.expiryTimeSecs
    rw [wallclockTimeChanged_state,if_neg hne,if_pos ⟨hpos,ht⟩]
    constructor
    · apply (remaining_expiryAfter_le _ clock _ rfl).trans
      omega
    · intro hs
      have hexpiry : expiryAfter clock clock.time (spanAfterJump self clock delta.toUInt64) =
          saturatingAdd clock.time (spanAfterJump self clock delta.toUInt64) := by
        rw [expiryAfter,if_neg (by simp [hs])]
      unfold remaining at hspan ⊢
      rw [hexpiry,saturatingAdd_toNat]
      omega
  · have hsame : remaining (wallclockTimeChanged self clock delta).1 clock.time =
        remaining self clock.time := by
      rw [wallclockTimeChanged_state,if_neg hp]
      split_ifs <;> rfl
    have hnone : remaining self clock.time-delta.toInt.toNat = remaining self clock.time := by
      by_cases hpos : 0 < delta
      · have ht := UInt64.le_iff_toNat_le.mp (UInt64.not_lt.mp (fun ht => hp ⟨hpos,ht⟩))
        unfold remaining
        omega
      · have hle : delta.toInt ≤ 0 := not_lt.mp (fun h => hpos (Int64.lt_iff_toInt_lt.mpr h))
        rw [Int.toNat_of_nonpos hle,Nat.sub_zero]
    rw [hsame,hnone]
    exact ⟨le_rfl,fun _ => rfl⟩

structure Fits (s : System) : Prop where
  boottime : s.boottime ≤ ktimeMax
  realtime : s.realtime ≤ ktimeMax

theorem step_fits {hmac : Hmac} {s s' : System} {op : Operation} (h : Fits s)
    (hs : step hmac s op = some s') : Fits s' := by
  cases op with
  | timePasses nsecs =>
    simp only [step] at hs
    split_ifs at hs with hg
    cases hs
    exact ⟨hg.1,hg.2⟩
  | setTime realtime =>
    simp only [step] at hs
    split_ifs at hs with hg
    cases hs
    exact ⟨h.boottime,hg⟩
  | clockJump sourceNewSeconds =>
    cases hs
    exact ⟨h.boottime,h.realtime⟩
  | failedAddCode codeStr =>
    simp only [step] at hs
    split_ifs at hs with hg
    cases hs
    exact ⟨h.boottime,h.realtime⟩

def System.since (s : System) (boottime : ℕ) : ℕ :=
  s.boottime/nsecPerSec-boottime/nsecPerSec

theorem credit_eq (s : System) (h : Fits s) :
    s.credit = s.manager.expiryTimeSecs.toNat-s.boottime/nsecPerSec := by
  unfold System.credit remaining
  rw [clockSeconds_toNat _ h.boottime]

theorem step_credit {hmac : Hmac} {s s' : System} {op : Operation} (h : Fits s)
    (hs : step hmac s op = some s') :
    s.boottime ≤ s'.boottime ∧ s.charged ≤ s'.charged ∧
      s'.credit ≤ s.credit-(s'.since s.boottime+(s'.charged-s.charged)) ∧
      (TimerMade op →
        s'.credit = s.credit-(s'.since s.boottime+(s'.charged-s.charged))) := by
  have hf := step_fits h hs
  cases op with
  | timePasses nsecs =>
    simp only [step] at hs
    split_ifs at hs with hg
    cases hs
    have hmono : s.boottime/nsecPerSec ≤ (s.boottime+nsecs)/nsecPerSec :=
      Nat.div_le_div_right (Nat.le_add_right _ _)
    have heq : ({ s with boottime := s.boottime+nsecs, realtime := s.realtime+nsecs } :
        System).credit = s.credit-((s.boottime+nsecs)/nsecPerSec-s.boottime/nsecPerSec+
          (s.charged-s.charged)) := by
      rw [credit_eq _ hf,credit_eq s h]
      dsimp only
      omega
    exact ⟨Nat.le_add_right _ _,le_rfl,heq.le,fun _ => heq⟩
  | setTime realtime =>
    simp only [step] at hs
    split_ifs at hs with hg
    cases hs
    have heq : s.credit = s.credit-(s.since s.boottime+(s.charged-s.charged)) := by
      unfold System.since
      omega
    exact ⟨le_rfl,le_rfl,heq.le,fun _ => heq⟩
  | clockJump sourceNewSeconds =>
    cases hs
    have hmanager : (s.clockJump sourceNewSeconds).manager =
        (wallclockTimeChanged s.manager (clockAt s.boottime s.realtime sourceNewSeconds)
          s.delta).1 := clockJumpCb_manager _ _ _ _
    obtain ⟨hle,heq⟩ := jump_remaining s.manager
      (clockAt s.boottime s.realtime sourceNewSeconds) s.delta
    have hcharge : s.credit-((s.clockJump sourceNewSeconds).since s.boottime+
        ((s.clockJump sourceNewSeconds).charged-s.charged)) =
          s.credit-s.delta.toInt.toNat := by
      unfold System.since System.clockJump
      dsimp only
      omega
    refine ⟨le_rfl,Nat.le_add_right _ _,?_,fun hmade => ?_⟩
    · rw [hcharge,System.credit,hmanager]
      exact hle
    · rw [hcharge,System.credit,hmanager]
      exact heq hmade
  | failedAddCode codeStr =>
    simp only [step] at hs
    split_ifs at hs with hg
    cases hs
    have heq : ({ s with manager := (addCode hmac s.manager
        (clockAt s.boottime s.realtime true) codeStr).2.1 } : System).credit =
          s.credit-(s.since s.boottime+(s.charged-s.charged)) := by
      have hsame := refused_balance hmac s.manager (clockAt s.boottime s.realtime true) codeStr hg
      have hzero : s.since s.boottime+(s.charged-s.charged) = 0 := by
        unfold System.since
        omega
      rw [hzero,Nat.sub_zero]
      exact hsame
    exact ⟨le_rfl,le_rfl,heq.le,fun _ => heq⟩

theorem since_step {s s' : System} {b₀ : ℕ} (h₀ : b₀ ≤ s.boottime) (h : s.boottime ≤ s'.boottime) :
    s'.since b₀ = s.since b₀+s'.since s.boottime := by
  have h1 : b₀/nsecPerSec ≤ s.boottime/nsecPerSec := Nat.div_le_div_right h₀
  have h2 : s.boottime/nsecPerSec ≤ s'.boottime/nsecPerSec := Nat.div_le_div_right h
  unfold System.since
  omega

structure Metered (credit b₀ : ℕ) (s : System) : Prop where
  fits : Fits s
  boottime : b₀ ≤ s.boottime
  credit : s.credit ≤ credit-(s.since b₀+s.charged)

theorem step_metered {hmac : Hmac} {credit b₀ : ℕ} {s s' : System} {op : Operation}
    (h : Metered credit b₀ s) (hs : step hmac s op = some s') : Metered credit b₀ s' := by
  obtain ⟨hboot,hcharged,hle,-⟩ := step_credit h.fits hs
  have hsince := since_step h.boottime hboot
  have hcredit := h.credit
  exact ⟨step_fits h.fits hs,h.boottime.trans hboot,by omega⟩

theorem step_metered_exactly {hmac : Hmac} {credit b₀ : ℕ} {s s' : System} {op : Operation}
    (h : Metered credit b₀ s ∧ s.credit = credit-(s.since b₀+s.charged)) (hop : TimerMade op)
    (hs : step hmac s op = some s') :
    Metered credit b₀ s' ∧ s'.credit = credit-(s'.since b₀+s'.charged) := by
  obtain ⟨hboot,hcharged,-,heq⟩ := step_credit h.1.fits hs
  have hsince := since_step h.1.boottime hboot
  have hcredit := h.2
  have hnow := heq hop
  exact ⟨step_metered h.1 hs,by omega⟩

theorem ahead_sub_le (b r b' r' : ℕ) :
    (ahead b' r'-ahead b r)*nsecPerSec ≤
      ((r' : ℤ)-b'-((r : ℤ)-b))+(2*(nsecPerSec : ℤ)-2) := by
  have hn : nsecPerSec = 1000000000 := rfl
  unfold ahead
  rw [hn]
  omega

theorem ahead_still {b r b' r' : ℕ} (h : (r : ℤ)-b = r'-b') : ahead b' r' ≤ ahead b r+1 := by
  have hn : nsecPerSec = 1000000000 := rfl
  unfold ahead
  rw [hn]
  omega

/-- The readings the service keeps were taken at some moment of the two clocks; since
then the wall clock was not set unless the source is ready. -/
structure TakenAt (b₀ r₀ : ℕ) (s : System) (b r : ℕ) : Prop where
  fits : Fits s
  boottime : b ≤ s.boottime
  realtime : r ≤ ktimeMax
  clockSecsV0 : s.clockSecsV0 = readings b r
  still : s.pending = false → (r : ℤ)-b = s.realtime-s.boottime
  forward : (s.charged*nsecPerSec : ℤ)+max 0 ((s.realtime : ℤ)-s.boottime-((r : ℤ)-b)) ≤
    s.setForward+s.dispatched*(2*(nsecPerSec : ℤ)-2)
  charged : ahead b r-ahead b₀ r₀ ≤ s.charged

theorem started_takenAt (m : EpgManager) {b₀ r₀ : ℕ} (hb : b₀ ≤ ktimeMax) (hr : r₀ ≤ ktimeMax) :
    TakenAt b₀ r₀ (started m b₀ r₀) b₀ r₀ where
  fits := ⟨hb,hr⟩
  boottime := le_rfl
  realtime := hr
  clockSecsV0 := rfl
  still _ := rfl
  forward := by simp [started]
  charged := by simp

theorem takenAt_delta {b₀ r₀ b r : ℕ} {s : System} (h : TakenAt b₀ r₀ s b r) :
    s.delta.toInt = ahead s.boottime s.realtime-ahead b r := by
  rw [System.delta,h.clockSecsV0]
  exact clockJumpDelta_toInt (h.boottime.trans h.fits.boottime) h.realtime h.fits.boottime
    h.fits.realtime

theorem step_takenAt {hmac : Hmac} {b₀ r₀ b r : ℕ} {s s' : System} {op : Operation}
    (h : TakenAt b₀ r₀ s b r) (hs : step hmac s op = some s') :
    ∃ b' r', TakenAt b₀ r₀ s' b' r' := by
  have hfits := step_fits h.fits hs
  have hforward := h.forward
  cases op with
  | timePasses nsecs =>
    simp only [step] at hs
    split_ifs at hs with hg
    cases hs
    refine ⟨b,r,hfits,h.boottime.trans (Nat.le_add_right _ _),h.realtime,h.clockSecsV0,?_,?_,
      h.charged⟩
    · intro hp
      have := h.still hp
      push_cast
      omega
    · push_cast
      omega
  | setTime realtime =>
    simp only [step] at hs
    split_ifs at hs with hg
    cases hs
    refine ⟨b,r,hfits,h.boottime,h.realtime,h.clockSecsV0,nofun,?_,h.charged⟩
    push_cast
    omega
  | clockJump sourceNewSeconds =>
    cases hs
    have hdelta := takenAt_delta h
    have hround := ahead_sub_le b r s.boottime s.realtime
    have hcharged := h.charged
    refine ⟨s.boottime,s.realtime,hfits,le_rfl,h.fits.realtime,clockJumpCb_readings _ _ _ _,
      fun _ => rfl,?_,?_⟩
    · show ((s.charged+s.delta.toInt.toNat : ℕ)*nsecPerSec : ℤ)+
          max 0 ((s.realtime : ℤ)-s.boottime-((s.realtime : ℤ)-s.boottime)) ≤
        s.setForward+(s.dispatched+1 : ℕ)*(2*(nsecPerSec : ℤ)-2)
      have hn : nsecPerSec = 1000000000 := rfl
      rw [hn] at hround hforward ⊢
      push_cast
      omega
    · show _ ≤ ((s.charged+s.delta.toInt.toNat : ℕ) : ℤ)
      omega
  | failedAddCode codeStr =>
    simp only [step] at hs
    split_ifs at hs with hg
    cases hs
    exact ⟨b,r,hfits,h.boottime,h.realtime,h.clockSecsV0,h.still,h.forward,h.charged⟩

theorem run_takenAt {hmac : Hmac} {m : EpgManager} {b₀ r₀ : ℕ} (hb : b₀ ≤ ktimeMax)
    (hr : r₀ ≤ ktimeMax) {ops : List Operation} {t : System}
    (ht : run (step hmac) ops (started m b₀ r₀) = some t) : ∃ b r, TakenAt b₀ r₀ t b r :=
  run_invariant (I := fun s => ∃ b r, TakenAt b₀ r₀ s b r)
    (fun _ _ _ ⟨_,_,h⟩ hs => step_takenAt h hs) ⟨b₀,r₀,started_takenAt m hb hr⟩ ht

theorem started_metered (m : EpgManager) {b₀ r₀ : ℕ} (hb : b₀ ≤ ktimeMax) (hr : r₀ ≤ ktimeMax) :
    Metered (started m b₀ r₀).credit b₀ (started m b₀ r₀) ∧
      (started m b₀ r₀).credit = (started m b₀ r₀).credit-
        ((started m b₀ r₀).since b₀+(started m b₀ r₀).charged) := by
  have hzero : (started m b₀ r₀).since b₀+(started m b₀ r₀).charged = 0 := by
    unfold System.since started
    dsimp only
    omega
  rw [hzero]
  exact ⟨⟨⟨hb,hr⟩,le_rfl,by rw [hzero]; exact le_rfl⟩,rfl⟩

theorem run_bounded {hmac : Hmac} {m : EpgManager} {b₀ r₀ : ℕ} (hb : b₀ ≤ ktimeMax)
    (hr : r₀ ≤ ktimeMax) {ops : List Operation} {t : System}
    (ht : run (step hmac) ops (started m b₀ r₀) = some t) :
    Metered (started m b₀ r₀).credit b₀ t :=
  run_invariant (fun _ _ _ h hs => step_metered h hs) (started_metered m hb hr).1 ht

theorem run_exact {hmac : Hmac} {m : EpgManager} {b₀ r₀ : ℕ} (hb : b₀ ≤ ktimeMax)
    (hr : r₀ ≤ ktimeMax) {ops : List Operation} (hmade : ∀ op ∈ ops, TimerMade op) {t : System}
    (ht : run (step hmac) ops (started m b₀ r₀) = some t) :
    t.credit = (started m b₀ r₀).credit-(t.since b₀+t.charged) :=
  (run_invariant_along (fun _ _ _ h hop hs => step_metered_exactly h hop hs)
    (started_metered m hb hr) (along_of_forall hmade _) ht).2

theorem takenAt_charged {b₀ r₀ b r : ℕ} {s : System} (h : TakenAt b₀ r₀ s b r)
    (hp : s.pending = false) : ahead s.boottime s.realtime ≤ ahead b₀ r₀+s.charged+1 := by
  have hstill := ahead_still (h.still hp)
  have hcharged := h.charged
  omega

/-- However the wall clock is set, and whenever the service comes to it: the credit is
what time and the charged jumps have left of it, if timers can be had; while no jump is
outstanding, it has gone down with the wall clock, to within a second; and no more is
charged than the wall clock was set forward, and less than two seconds for a dispatch. -/
theorem corrections_charged (hmac : Hmac) (m : EpgManager) (b₀ r₀ : ℕ) (hb : b₀ ≤ ktimeMax)
    (hr : r₀ ≤ ktimeMax) (ops : List Operation) (t : System)
    (ht : run (step hmac) ops (started m b₀ r₀) = some t) :
    ((∀ op ∈ ops, TimerMade op) →
        t.credit = (started m b₀ r₀).credit-(t.since b₀+t.charged)) ∧
      (t.pending = false → t.credit ≤
        (started m b₀ r₀).credit-(t.realtime/nsecPerSec-r₀/nsecPerSec-1)) ∧
      t.charged*nsecPerSec ≤ t.setForward+t.dispatched*(2*nsecPerSec-2) := by
  obtain ⟨b,r,htaken⟩ := run_takenAt hb hr ht
  have hmeter := run_bounded hb hr ht
  refine ⟨fun hmade => run_exact hb hr hmade ht,fun hp => ?_,?_⟩
  · have hcharged := takenAt_charged htaken hp
    have hcredit := hmeter.credit
    have hboot : b₀/nsecPerSec ≤ t.boottime/nsecPerSec := Nat.div_le_div_right hmeter.boottime
    unfold ahead at hcharged
    unfold System.since at hcredit
    omega
  · have hforward := htaken.forward
    have hn : nsecPerSec = 1000000000 := rfl
    rw [hn] at hforward ⊢
    omega

def correctedTwice : List Operation :=
  [.timePasses (60*nsecPerSec), .setTime (6860*nsecPerSec), .setTime (7760*nsecPerSec),
    .timePasses (nsecPerSec/2), .clockJump true, .failedAddCode [49],
    .timePasses (3000*nsecPerSec), .setTime (11660*nsecPerSec), .clockJump true]

def dayOfCredit : EpgManager := { freshManager with expiryTimeSecs := 86500 }

theorem corrections_charged_example :
    ∃ t, run (step zeroHmac) correctedTwice (started dayOfCredit (100*nsecPerSec)
        (5000*nsecPerSec)) = some t ∧ t.pending = false ∧ t.charged = 3600 ∧
      t.credit = 86400-(t.since (100*nsecPerSec)+t.charged) := by
  have h : ((run (step zeroHmac) correctedTwice (started dayOfCredit (100*nsecPerSec)
      (5000*nsecPerSec))).any (fun t => t.pending = false ∧ t.charged = 3600)) = true := by
    decide +kernel
  obtain ⟨t,ht,hd⟩ := (Option.any_eq_true _ _).mp h
  obtain ⟨hp,hc⟩ := of_decide_eq_true hd
  have hmade : ∀ op ∈ correctedTwice, TimerMade op := by simp [correctedTwice,TimerMade]
  have hcredit : (started dayOfCredit (100*nsecPerSec) (5000*nsecPerSec)).credit = 86400 := by
    decide +kernel
  have hall := corrections_charged zeroHmac dayOfCredit (100*nsecPerSec) (5000*nsecPerSec)
    (by decide) (by decide) correctedTwice t ht
  exact ⟨t,ht,hp,hc,hcredit ▸ hall.1 hmade⟩

def System.aheadV0 (s : System) : ℤ :=
  s.clockSecsV0.realtimeSecs.toInt-s.clockSecsV0.boottimeSecs.toInt

theorem takenAt_aheadV0 {b₀ r₀ b r : ℕ} {s : System} (h : TakenAt b₀ r₀ s b r) :
    s.aheadV0 = ahead b r := by
  unfold System.aheadV0 ahead
  rw [h.clockSecsV0]
  show (getClockSeconds r).toInt-(getClockSeconds b).toInt = _
  rw [getClockSeconds_toInt r h.realtime,
    getClockSeconds_toInt b (h.boottime.trans h.fits.boottime)]

theorem step_gained {hmac : Hmac} {b₀ r₀ : ℕ} {s s' : System} {op : Operation}
    (h : (∃ b r, TakenAt b₀ r₀ s b r) ∧ (s.charged : ℤ) = s.aheadV0-ahead b₀ r₀)
    (hop : NotPutBack s op) (hs : step hmac s op = some s') :
    (∃ b r, TakenAt b₀ r₀ s' b r) ∧ (s'.charged : ℤ) = s'.aheadV0-ahead b₀ r₀ := by
  obtain ⟨⟨b,r,htaken⟩,hcharged⟩ := h
  obtain ⟨b',r',htaken'⟩ := step_takenAt htaken hs
  refine ⟨⟨b',r',htaken'⟩,?_⟩
  cases op with
  | clockJump sourceNewSeconds =>
    cases hs
    have hdelta := takenAt_delta htaken
    have hbefore := takenAt_aheadV0 htaken
    have hafter : (s.clockJump sourceNewSeconds).aheadV0 = ahead s.boottime s.realtime := by
      unfold System.aheadV0
      rw [show (s.clockJump sourceNewSeconds).clockSecsV0 = readings s.boottime s.realtime from
        clockJumpCb_readings _ _ _ _]
      show (getClockSeconds s.realtime).toInt-(getClockSeconds s.boottime).toInt = _
      rw [getClockSeconds_toInt _ htaken.fits.realtime,
        getClockSeconds_toInt _ htaken.fits.boottime]
      rfl
    have hforward : 0 ≤ s.delta.toInt := hop
    rw [hafter]
    show ((s.charged+s.delta.toInt.toNat : ℕ) : ℤ) = _
    omega
  | _ =>
    simp only [step] at hs
    split_ifs at hs
    cases hs
    exact hcharged

theorem loaded_remaining (saved : SavedState) (files : Directory) (key : List UInt8)
    (hf : Holds files saved) (hk : files .key = some key) {b r : ℕ} (hb : b ≤ ktimeMax)
    (hr : r ≤ ktimeMax) (hc : saved.expirySeconds.toNat ≤ fiveYearsSecs) :
    ∃ m, initialise (clockAt b r true) files = some m ∧
      m.expiryTimeSecs.toNat = b/nsecPerSec+
        (saved.expirySeconds.toNat-(r/nsecPerSec-saved.clockTime.toNat)) := by
  refine ⟨_,initialise_saved (clockAt b r true) files saved key hf hk,?_⟩
  have htime : (clockAt b r true).time.toNat = b/nsecPerSec := clockSeconds_toNat b hb
  have hwall : (clockAt b r true).wallclockTime.toNat = r/nsecPerSec := clockSeconds_toNat r hr
  have hmax : ktimeMax = 9223372036854775807 := rfl
  have hle : b/nsecPerSec ≤ b := Nat.div_le_self _ _
  have hfive : fiveYearsSecs = 157680000 := rfl
  have hleft : (creditOnLoad saved.clockTime saved.expirySeconds
      (clockAt b r true).wallclockTime).toNat =
        saved.expirySeconds.toNat-(r/nsecPerSec-saved.clockTime.toNat) := by
    rw [creditOnLoad_toNat,creditLeft_small _ _ _ hc,hwall]
  show (expiryAfter (clockAt b r true) (clockAt b r true).time _).toNat = _
  rw [expiryAfter,if_neg (by simp [clockAt]),saturatingAdd_toNat,htime,hleft]
  omega

/-- What the wall clock gains between the load of the state and the first readings of
the service, in the seconds these show. -/
def unseen (b r b₀ r₀ : ℕ) : ℤ := ahead b₀ r₀-ahead b r

theorem unseen_near (b r b₀ r₀ : ℕ) :
    |unseen b r b₀ r₀*nsecPerSec-((r₀ : ℤ)-b₀-((r : ℤ)-b))| < 2*nsecPerSec := by
  have hgain := ahead_sub_le b r b₀ r₀
  have hloss := ahead_sub_le b₀ r₀ b r
  have hn : nsecPerSec = 1000000000 := rfl
  unfold unseen
  rw [abs_lt]
  rw [hn] at hgain hloss ⊢
  push_cast at hgain hloss ⊢
  constructor <;> omega

theorem started_credit {m : EpgManager} {saved clockTime b r b₀ r₀ : ℕ} (hb : b₀ ≤ ktimeMax)
    (hr : r₀ ≤ ktimeMax) (hl : b ≤ b₀)
    (hm : m.expiryTimeSecs.toNat = b/nsecPerSec+(saved-(r/nsecPerSec-clockTime))) :
    (started m b₀ r₀).credit =
      saved-(r/nsecPerSec-clockTime+(b₀/nsecPerSec-b/nsecPerSec)) := by
  have hbetween : b/nsecPerSec ≤ b₀/nsecPerSec := Nat.div_le_div_right hl
  rw [credit_eq (started m b₀ r₀) ⟨hb,hr⟩]
  show m.expiryTimeSecs.toNat-b₀/nsecPerSec = _
  omega

theorem run_gained {hmac : Hmac} {m : EpgManager} {b₀ r₀ : ℕ} (hb : b₀ ≤ ktimeMax)
    (hr : r₀ ≤ ktimeMax) {ops : List Operation} {t : System}
    (hforward : Along (step hmac) NotPutBack ops (started m b₀ r₀))
    (ht : run (step hmac) ops (started m b₀ r₀) = some t) (hp : t.pending = false) :
    ahead b₀ r₀+t.charged ≤ ahead t.boottime t.realtime+1 := by
  have hstart : (0 : ℤ) = (started m b₀ r₀).aheadV0-ahead b₀ r₀ := by
    rw [takenAt_aheadV0 (started_takenAt m hb hr)]
    omega
  obtain ⟨⟨b,r,htaken⟩,hgained⟩ := run_invariant_along
    (I := fun s => (∃ b r, TakenAt b₀ r₀ s b r) ∧ (s.charged : ℤ) = s.aheadV0-ahead b₀ r₀)
    (fun _ _ _ h hop hs => step_gained h hop hs)
    ⟨⟨b₀,r₀,started_takenAt m hb hr⟩,hstart⟩ hforward ht
  have hstill := ahead_still (htaken.still hp).symm
  rw [takenAt_aheadV0 htaken] at hgained
  omega

/-- A machine is started with a wall clock that is not behind the save, and it is
corrected at any time after that, in any number of steps. Whenever no jump is
outstanding, the credit is what was saved less what the wall clock has gone on by since,
but for what it gained before the service had readings to compare with: to within a
second it is no more than that however the wall clock is set, and no less if it is never
found put back. -/
theorem off_time_charged (hmac : Hmac) (saved : SavedState) (files : Directory)
    (key : List UInt8) (hf : Holds files saved) (hk : files .key = some key)
    (hc : saved.expirySeconds.toNat ≤ fiveYearsSecs) (b r b₀ r₀ : ℕ) (hreal : r ≤ ktimeMax)
    (hb : b₀ ≤ ktimeMax) (hr : r₀ ≤ ktimeMax) (hl : b ≤ b₀)
    (hw : saved.clockTime.toNat ≤ r/nsecPerSec) :
    |unseen b r b₀ r₀*nsecPerSec-((r₀ : ℤ)-b₀-((r : ℤ)-b))| < 2*nsecPerSec ∧
      ∃ m, initialise (clockAt b r true) files = some m ∧
        ∀ ops t, run (step hmac) ops (started m b₀ r₀) = some t → t.pending = false →
          (t.credit : ℤ) ≤ max 0 (saved.expirySeconds.toNat-
            ((t.realtime/nsecPerSec : ℕ)-saved.clockTime.toNat-unseen b r b₀ r₀-1)) ∧
          ((∀ op ∈ ops, TimerMade op) → Along (step hmac) NotPutBack ops (started m b₀ r₀) →
            saved.expirySeconds.toNat-
              ((t.realtime/nsecPerSec : ℕ)-saved.clockTime.toNat-unseen b r b₀ r₀+1) ≤
                (t.credit : ℤ)) := by
  refine ⟨unseen_near b r b₀ r₀,?_⟩
  obtain ⟨m,hm,hexpiry⟩ := loaded_remaining saved files key hf hk (hl.trans hb) hreal hc
  refine ⟨m,hm,fun ops t ht hp => ?_⟩
  have hstart := started_credit hb hr hl hexpiry
  have hmeter := run_bounded hb hr ht
  have hbetween : b/nsecPerSec ≤ b₀/nsecPerSec := Nat.div_le_div_right hl
  have hboot : b₀/nsecPerSec ≤ t.boottime/nsecPerSec := Nat.div_le_div_right hmeter.boottime
  unfold unseen
  constructor
  · obtain ⟨b',r',htaken⟩ := run_takenAt hb hr ht
    have hcharged := takenAt_charged htaken hp
    have hcredit := hmeter.credit
    unfold ahead at hcharged ⊢
    unfold System.since at hcredit
    omega
  · intro hmade hforward
    have hgained := run_gained hb hr hforward ht hp
    have hexact := run_exact hb hr hmade ht
    unfold ahead at hgained ⊢
    unfold System.since at hexact
    omega

instance (s : System) (op : Operation) : Decidable (NotPutBack s op) :=
  match op with
  | .clockJump _ => inferInstanceAs (Decidable (_ ≤ _))
  | .timePasses _ => isTrue trivial
  | .setTime _ => isTrue trivial
  | .failedAddCode _ => isTrue trivial

def slowFiles : Directory := directoryOf ⟨5000, 86400, noUsedCodes⟩ (List.replicate 64 0)

def corrected : List Operation :=
  [.timePasses (60*nsecPerSec), .setTime (14000*nsecPerSec), .clockJump true,
    .timePasses (7*nsecPerSec), .setTime (16267*nsecPerSec), .clockJump true]

/-- An hour is put right before the service has readings: it is never charged. -/
theorem off_time_charged_example :
    ∃ m, initialise (clockAt (30*nsecPerSec) (8600*nsecPerSec) true) slowFiles = some m ∧
      ∃ t, run (step zeroHmac) corrected (started m (31*nsecPerSec) (12200*nsecPerSec)) = some t ∧
        unseen (30*nsecPerSec) (8600*nsecPerSec) (31*nsecPerSec) (12200*nsecPerSec) = 3599 ∧
        86400-((t.realtime/nsecPerSec : ℕ)-5000-3599+1) ≤ (t.credit : ℤ) ∧
        (t.credit : ℤ) ≤ max (0 : ℤ) (86400-((t.realtime/nsecPerSec : ℕ)-5000-3599-1)) := by
  obtain ⟨-,m,hm,hall⟩ := off_time_charged zeroHmac ⟨5000, 86400, noUsedCodes⟩ slowFiles
    (List.replicate 64 0) (directoryOf_holds _ _) rfl (by decide) (30*nsecPerSec)
    (8600*nsecPerSec) (31*nsecPerSec) (12200*nsecPerSec) (by decide) (by decide) (by decide)
    (by decide) (by decide)
  have h : ((initialise (clockAt (30*nsecPerSec) (8600*nsecPerSec) true) slowFiles).any (fun m =>
      (run (step zeroHmac) corrected (started m (31*nsecPerSec) (12200*nsecPerSec))).any (fun t =>
        t.pending = false ∧ Along (step zeroHmac) NotPutBack corrected
          (started m (31*nsecPerSec) (12200*nsecPerSec))))) = true := by decide +kernel
  obtain ⟨m',hm',ht⟩ := (Option.any_eq_true _ _).mp h
  obtain rfl := Option.some.inj (hm'.symm.trans hm)
  obtain ⟨t,ht,hd⟩ := (Option.any_eq_true _ _).mp ht
  obtain ⟨hp,hforward⟩ := of_decide_eq_true hd
  have hmade : ∀ op ∈ corrected, TimerMade op := by simp [corrected,TimerMade]
  have hunseen : unseen (30*nsecPerSec) (8600*nsecPerSec) (31*nsecPerSec) (12200*nsecPerSec) =
      3599 := by decide +kernel
  obtain ⟨habove,hbelow⟩ := hall corrected t ht hp
  rw [hunseen] at habove hbelow
  exact ⟨m',hm,t,ht,hunseen,hbelow hmade hforward,habove⟩

end EosPayg.ClockCorrections
