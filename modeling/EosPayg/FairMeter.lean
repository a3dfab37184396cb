import EosPayg.ClockCorrections
import EosPayg.CodeLedger
import EosPayg.ErrorBudget
import EosPayg.MachineRuns

/-!
# The meter is fair

Time is paid for by the wall clock, whether the machine is on or off. An exact meter
would keep the moment until which it is paid. The manager counts seconds of a clock that
begins with every boot, and finds what it saved by seconds of another: over any number
of power cycles the two stay within a few seconds of each other.
-/

set_option autoImplicit false

namespace EosPayg.FairMeter
open EosPayg.PaygCodes EosPayg.ManagerState EosPayg.ManagerCode EosPayg.ManagerFiles
  EosPayg.WordArithmetic EosPayg.GuardedRun EosPayg.ErrorBudget EosPayg.ClockCorrections
open EosPayg.CodeLedger (seconds baseSecs_toNat)
open EosPayg.CreditBalance (fiveYearsSecs)
open EosPayg.ExpiryTimer (nsecPerSec)
open EosPayg.MachineRuns (World Machine)
open EosPayg.ServiceShutdown (Readings clockJumpDelta clockJumpCb clockJumpCb_readings
  clockJumpCb_manager)

/-- A moment and the one until which is paid, in nanoseconds of the wall clock. -/
structure Meter where
  now : ℕ
  paidUntil : ℕ

inductive Event where
  | elapse (nsecs : ℕ)
  | powerOff (nsecs : ℕ)
  | pay (secs : ℕ)
  | clear
  | clockJump
  deriving DecidableEq

def Meter.take (m : Meter) : Event → Meter
  | .elapse nsecs => { m with now := m.now+nsecs }
  | .powerOff nsecs => { m with now := m.now+nsecs }
  | .pay secs => { m with paidUntil := max m.paidUntil m.now+secs*nsecPerSec }
  | .clear => { m with paidUntil := m.now }
  | .clockJump => m

def Meter.left (m : Meter) : ℕ := m.paidUntil-m.now

def Event.cost : Event → ℕ
  | .powerOff _ => 2*nsecPerSec
  | .pay _ => nsecPerSec
  | .clockJump => nsecPerSec
  | .elapse _ => 0
  | .clear => 0

/-- The manager, both clocks, the readings the service keeps, and the last save, which
is current while it has all codes. -/
structure Device where
  manager : EpgManager
  boottime : ℕ
  realtime : ℕ
  clockSecsV0 : Option Readings
  saved : SavedState
  current : Bool

/-- Timers can be had. -/
def Device.clock (d : Device) : EpgClock := clockAt d.boottime d.realtime true

def Device.delta (d : Device) (v0 : Readings) : Int64 :=
  clockJumpDelta v0 (readings d.boottime d.realtime)

def Device.clockJump (d : Device) (v0 : Readings) : Device :=
  let called := clockJumpCb d.manager d.clock v0 (readings d.boottime d.realtime)
  { d with manager := called.1.1, clockSecsV0 := some called.2 }

inductive Operation where
  | timePasses (nsecs : ℕ)
  | setProvider
  | clockJump
  | addCode (codeStr : List UInt8)
  | clearCode
  | save
  | powerCycle (nsecs boottime : ℕ) (files : Directory)

/-- The wall clock is never set. The power goes at any moment at which the last save is
current and complete. -/
def step (hmac : Hmac) (d : Device) : Operation → Option Device
  | .timePasses nsecs =>
    if d.boottime+nsecs ≤ ktimeMax ∧ d.realtime+nsecs ≤ ktimeMax then
      some { d with boottime := d.boottime+nsecs, realtime := d.realtime+nsecs }
    else none
  | .setProvider => some { d with clockSecsV0 := some (readings d.boottime d.realtime) }
  | .clockJump => d.clockSecsV0.map d.clockJump
  | .addCode codeStr =>
    some { d with
      manager := (addCode hmac d.manager d.clock codeStr).2.1
      current := d.current && (acceptedCode hmac d.manager d.clock codeStr).isNone }
  | .clearCode =>
    some { d with
      manager := (clearCode d.manager d.clock).2.1
      current := d.current && (clearCode d.manager d.clock).1.toOption.isNone }
  | .save => some { d with saved := saveState d.manager d.clock, current := true }
  | .powerCycle nsecs boottime files =>
    if d.current = true ∧ d.realtime+nsecs ≤ ktimeMax ∧ boottime ≤ ktimeMax ∧
        Holds files d.saved ∧ files .key = some d.manager.keyBytes then
      (initialise (clockAt boottime (d.realtime+nsecs) true) files).map fun m =>
        { d with
          manager := m
          boottime := boottime
          realtime := d.realtime+nsecs
          clockSecsV0 := none }
    else none

def Device.machine (d : Device) (credited : List UsedCode) : Machine :=
  ⟨⟨d.manager, d.clock⟩, d.saved, credited⟩

def machineOps (d : Device) : Operation → List MachineRuns.Operation
  | .timePasses nsecs =>
    [.timePasses (clockAt (d.boottime+nsecs) (d.realtime+nsecs) true)]
  | .setProvider => []
  | .clockJump => d.clockSecsV0.toList.map fun v0 => .wallclockTimeChanged (d.delta v0)
  | .addCode codeStr => [.addCode codeStr]
  | .clearCode => [.clearCode]
  | .save => [.save]
  | .powerCycle nsecs boottime files =>
    [.powerCycle (clockAt boottime (d.realtime+nsecs) true) files]

def emits (hmac : Hmac) (d : Device) : Operation → List Event
  | .timePasses nsecs => [.elapse nsecs]
  | .clockJump => [.clockJump]
  | .addCode codeStr =>
    (acceptedCode hmac d.manager d.clock codeStr).toList.map fun c => .pay (seconds c)
  | .clearCode => if (clearCode d.manager d.clock).1.toOption.isSome then [.clear] else []
  | .powerCycle nsecs _ _ => [.powerOff nsecs]
  | .setProvider => []
  | .save => []

def Device.credit (d : Device) : ℕ := remaining d.manager d.clock.time

/-- No code makes the credit more than five years, which a load would not believe. -/
def Modest (hmac : Hmac) (d : Device) : Operation → Prop
  | .addCode codeStr =>
    remaining (addCode hmac d.manager d.clock codeStr).2.1 d.clock.time ≤ fiveYearsSecs
  | _ => True

instance (hmac : Hmac) (d : Device) (op : Operation) : Decidable (Modest hmac d op) :=
  match op with
  | .addCode _ => inferInstanceAs (Decidable (_ ≤ _))
  | .timePasses _ => isTrue trivial
  | .setProvider => isTrue trivial
  | .clockJump => isTrue trivial
  | .clearCode => isTrue trivial
  | .save => isTrue trivial
  | .powerCycle _ _ _ => isTrue trivial

def started (manager : EpgManager) (boottime realtime : ℕ) : Device where
  manager := manager
  boottime := boottime
  realtime := realtime
  clockSecsV0 := none
  saved := saveState manager (clockAt boottime realtime true)
  current := true

def Device.meter (d : Device) : Meter := ⟨d.realtime, d.realtime+d.credit*nsecPerSec⟩

def metered (hmac : Hmac) (ops : List Operation) (d : Device) : Meter :=
  replay Meter.take (trace (step hmac) (emits hmac) ops d) d.meter

def slack (hmac : Hmac) (ops : List Operation) (d : Device) : ℕ :=
  budget Event.cost (trace (step hmac) (emits hmac) ops d)

/-- What an expiry time leaves on the boot clock, and what is paid for on the wall clock,
are near each other. -/
structure Close (unit e expiry boottime paidUntil realtime : ℕ) : Prop where
  above : expiry*unit-boottime ≤ paidUntil-realtime+e
  below : paidUntil-realtime ≤ expiry*unit-boottime+e

structure SavedClose (unit e clockTime expirySecs paidUntil realtime : ℕ) : Prop where
  above : (clockTime+expirySecs)*unit-realtime ≤ paidUntil-realtime+e+unit
  below : paidUntil-realtime ≤ (clockTime+expirySecs)*unit-realtime+e+unit

variable {unit e e' x x' b c y y' r secs : ℕ}

theorem close_elapse (h : Close unit e x b y r) (n : ℕ) : Close unit e x (b+n) y (r+n) := by
  obtain ⟨ha,hb⟩ := h
  constructor <;> omega

theorem savedClose_elapse (h : SavedClose unit e c x y r) (n : ℕ) :
    SavedClose unit e c x y (r+n) := by
  obtain ⟨ha,hb⟩ := h
  constructor <;> omega

theorem savedClose_mono (h : SavedClose unit e c x y r) (he : e ≤ e') :
    SavedClose unit e' c x y r := by
  obtain ⟨ha,hb⟩ := h
  constructor <;> omega

theorem close_clear (unit e b r : ℕ) : Close unit e 0 b r r := by
  constructor <;> omega

theorem wholeUnits (hu : 0 < unit) (n : ℕ) : n/unit*unit ≤ n ∧ n < n/unit*unit+unit :=
  ⟨Nat.div_mul_le_self n unit,Nat.lt_div_mul_add hu⟩

theorem close_pay (hu : 0 < unit) (h : Close unit e x b y r)
    (hx : x' = max (b/unit) x+secs) (hy : y' = max y r+secs*unit) (he : e+unit ≤ e') :
    Close unit e' x' b y' r := by
  obtain ⟨ha,hb⟩ := h
  have hboot := wholeUnits hu b
  have hx' : x'*unit = max (b/unit*unit) (x*unit)+secs*unit := by
    rw [hx,Nat.add_mul,Nat.mul_max_mul_right]
  constructor <;> omega

theorem close_jump {d : ℕ} (hu : 0 < unit) (h : Close unit e x b y r)
    (hx : x'-b/unit = x-b/unit-d) (hd : d ≤ 1) (he : e+unit ≤ e') : Close unit e' x' b y r := by
  obtain ⟨ha,hb⟩ := h
  have hboot := wholeUnits hu b
  have hx' := congrArg (·*unit) hx
  simp only [Nat.sub_mul] at hx'
  have hd' := Nat.mul_le_mul_right unit hd
  constructor <;> omega

theorem close_save (hu : 0 < unit) (h : Close unit e x b y r) (hc : c = r/unit)
    (hx : secs = x-b/unit) : SavedClose unit e c secs y r := by
  obtain ⟨ha,hb⟩ := h
  have hboot := wholeUnits hu b
  have hreal := wholeUnits hu r
  have hsum : (c+secs)*unit = r/unit*unit+(x*unit-b/unit*unit) := by
    rw [hc,hx,Nat.add_mul,Nat.sub_mul]
  constructor <;> omega

theorem close_load (hu : 0 < unit) (h : SavedClose unit e c secs y r) (hc : c ≤ r/unit)
    (hx : x = b/unit+(secs-(r/unit-c))) (he : e+2*unit ≤ e') : Close unit e' x b y r := by
  obtain ⟨ha,hb⟩ := h
  have hboot := wholeUnits hu b
  have hreal := wholeUnits hu r
  have hc' := Nat.mul_le_mul_right unit hc
  have hx' : x*unit = b/unit*unit+(secs*unit-(r/unit*unit-c*unit)) := by
    rw [hx,Nat.add_mul,Nat.sub_mul,Nat.sub_mul]
  rw [Nat.add_mul] at ha hb
  constructor <;> omega

theorem close_started {credit : ℕ} (hu : 0 < unit) (hc : credit = x-b/unit) :
    Close unit unit x b (r+credit*unit) r := by
  have hboot := wholeUnits hu b
  rw [hc,Nat.sub_mul]
  constructor <;> omega

theorem close_left {credit : ℕ} (hu : 0 < unit) (h : Close unit e x b y r)
    (hc : credit = x-b/unit) :
    credit*unit ≤ y-r+e+unit ∧ y-r ≤ credit*unit+e := by
  obtain ⟨ha,hb⟩ := h
  have hboot := wholeUnits hu b
  rw [hc,Nat.sub_mul]
  omega

def Device.Taken (d : Device) (v0 : Readings) : Prop :=
  ∃ b r, v0 = readings b r ∧ b ≤ d.boottime ∧ r ≤ d.realtime ∧
    (r : ℤ)-b = d.realtime-d.boottime

structure Near (e : ℕ) (d : Device) (m : Meter) : Prop where
  boottime : d.boottime ≤ ktimeMax
  realtime : d.realtime ≤ ktimeMax
  now : m.now = d.realtime
  close : Close nsecPerSec e d.manager.expiryTimeSecs.toNat d.boottime m.paidUntil d.realtime
  credit : d.credit ≤ fiveYearsSecs
  taken : ∀ v0 ∈ d.clockSecsV0, d.Taken v0
  saved : d.current = true → SavedClose nsecPerSec e d.saved.clockTime.toNat
    d.saved.expirySeconds.toNat m.paidUntil d.realtime
  savedClock : d.saved.clockTime.toNat ≤ d.realtime/nsecPerSec
  savedCredit : d.saved.expirySeconds.toNat ≤ fiveYearsSecs

theorem credit_eq (d : Device) (h : d.boottime ≤ ktimeMax) :
    d.credit = d.manager.expiryTimeSecs.toNat-d.boottime/nsecPerSec := by
  unfold Device.credit remaining
  rw [Device.clock,clockAt,clockSeconds_toNat _ h]

theorem clockSeconds_le {b b' : ℕ} (h : b ≤ b') (hb : b' ≤ ktimeMax) :
    UInt64.ofNat (b/nsecPerSec) ≤ UInt64.ofNat (b'/nsecPerSec) := by
  rw [UInt64.le_iff_toNat_le,clockSeconds_toNat _ (h.trans hb),clockSeconds_toNat _ hb]
  exact Nat.div_le_div_right h

theorem step_machine {hmac : Hmac} {d d' : Device} {op : Operation} (h : d.boottime ≤ ktimeMax)
    (hs : step hmac d op = some d') (credited : List UsedCode) :
    d'.boottime ≤ ktimeMax ∧ ∃ credited', run (Machine.step hmac) (machineOps d op)
      (d.machine credited) = some (d'.machine credited') := by
  have hone {op' : MachineRuns.Operation} {credited' : List UsedCode}
      (ht : (d.machine credited).step hmac op' = some (d'.machine credited')) :
      ∃ credited', run (Machine.step hmac) [op'] (d.machine credited) =
        some (d'.machine credited') :=
    ⟨credited',run_cons.mpr ⟨_,ht,run_nil _⟩⟩
  cases op with
  | timePasses nsecs =>
    simp only [step] at hs
    split_ifs at hs with hg
    cases hs
    have hle := clockSeconds_le (Nat.le_add_right d.boottime nsecs) hg.1
    exact ⟨hg.1,hone (MachineRuns.step_some.mpr ⟨trivial,_,if_pos hle,rfl⟩)⟩
  | setProvider =>
    cases hs
    exact ⟨h,credited,rfl⟩
  | clockJump =>
    obtain ⟨v0,hv,rfl⟩ := Option.map_eq_some_iff.mp hs
    have hjumped : (d.clockJump v0).machine (credited++[]) =
        (d.machine credited).account hmac (.wallclockTimeChanged (d.delta v0))
          ⟨(wallclockTimeChanged d.manager d.clock (d.delta v0)).1, d.clock⟩ := by
      rw [Device.machine,Device.clockJump,clockJumpCb_manager]
      rfl
    rw [machineOps,hv]
    exact ⟨h,hone (MachineRuns.step_some.mpr ⟨trivial,_,rfl,hjumped⟩)⟩
  | addCode codeStr =>
    cases hs
    exact ⟨h,hone (MachineRuns.step_some.mpr ⟨trivial,_,rfl,rfl⟩)⟩
  | clearCode =>
    cases hs
    exact ⟨h,hone (MachineRuns.step_some.mpr ⟨trivial,_,rfl,rfl⟩)⟩
  | save =>
    cases hs
    exact ⟨h,hone (MachineRuns.step_some.mpr ⟨trivial,_,rfl,rfl⟩)⟩
  | powerCycle nsecs boottime files =>
    simp only [step] at hs
    split_ifs at hs with hg
    obtain ⟨-,-,hboot,hfinds⟩ := hg
    obtain ⟨m,hm,rfl⟩ := Option.map_eq_some_iff.mp hs
    exact ⟨hboot,hone (MachineRuns.step_some.mpr
      ⟨hfinds,_,Option.map_eq_some_iff.mpr ⟨m,hm,rfl⟩,rfl⟩)⟩

/-- The life of a device is a life of its machine. -/
theorem run_machine {hmac : Hmac} {m : EpgManager} {b r : ℕ} (hb : b ≤ ktimeMax)
    {ops : List Operation} {t : Device} (ht : run (step hmac) ops (started m b r) = some t) :
    ∃ credited, run (Machine.step hmac) (trace (step hmac) machineOps ops (started m b r))
      (MachineRuns.start m (clockAt b r true)) = some (t.machine credited) := by
  obtain ⟨s,hs,-,credited,rfl⟩ := run_simulated
    (R := fun d s => d.boottime ≤ ktimeMax ∧ ∃ credited, s = d.machine credited)
    (fun d op d' s hR hstep => by
      obtain ⟨h,credited,rfl⟩ := hR
      obtain ⟨h',credited',hrun⟩ := step_machine h hstep credited
      exact ⟨_,hrun,h',credited',rfl⟩)
    ⟨hb,[],rfl⟩ ht
  exact ⟨credited,hs⟩

theorem timePasses_near {hmac : Hmac} {d d' : Device} {m : Meter} {nsecs : ℕ} (h : Near e d m)
    (hs : step hmac d (.timePasses nsecs) = some d') : Near e d' (m.take (.elapse nsecs)) := by
  simp only [step] at hs
  split_ifs at hs with hg
  cases hs
  refine ⟨hg.1,hg.2,?_,close_elapse h.close nsecs,?_,?_,?_,?_,h.savedCredit⟩
  · show m.now+nsecs = d.realtime+nsecs
    rw [h.now]
  · have hmono : d.boottime/nsecPerSec ≤ (d.boottime+nsecs)/nsecPerSec :=
      Nat.div_le_div_right (Nat.le_add_right _ _)
    have hcredit := h.credit
    rw [credit_eq d h.boottime] at hcredit
    rw [credit_eq _ hg.1]
    exact (Nat.sub_le_sub_left hmono _).trans hcredit
  · intro v0 hv
    obtain ⟨b,r,hr,hb,hle,hstill⟩ := h.taken v0 hv
    refine ⟨b,r,hr,hb.trans (Nat.le_add_right _ _),hle.trans (Nat.le_add_right _ _),?_⟩
    push_cast
    omega
  · exact fun hc => savedClose_elapse (h.saved hc) nsecs
  · exact h.savedClock.trans (Nat.div_le_div_right (Nat.le_add_right _ _))

theorem setProvider_near {hmac : Hmac} {d d' : Device} {m : Meter} (h : Near e d m)
    (hs : step hmac d .setProvider = some d') : Near e d' m := by
  cases hs
  refine { h with taken := ?_ }
  intro v0 hv
  obtain rfl := Option.some.inj hv
  exact ⟨d.boottime,d.realtime,rfl,le_rfl,le_rfl,rfl⟩

theorem save_near {hmac : Hmac} {d d' : Device} {m : Meter} (h : Near e d m)
    (hs : step hmac d .save = some d') : Near e d' m := by
  cases hs
  have hclock : d.clock.wallclockTime.toNat = d.realtime/nsecPerSec :=
    clockSeconds_toNat d.realtime h.realtime
  have hcredit : (saveState d.manager d.clock).expirySeconds.toNat = d.credit :=
    saveState_expirySeconds d.manager d.clock
  exact { h with
    saved := fun _ => close_save (by decide) h.close hclock
      (hcredit.trans (credit_eq d h.boottime))
    savedClock := hclock.le
    savedCredit := hcredit.le.trans h.credit }

theorem clockJump_near {hmac : Hmac} {d d' : Device} {m : Meter} (h : Near e d m)
    (hs : step hmac d .clockJump = some d') : Near (e+nsecPerSec) d' m := by
  obtain ⟨v0,hv,rfl⟩ := Option.map_eq_some_iff.mp hs
  obtain ⟨b,r,hr,hb,hle,hstill⟩ := h.taken v0 hv
  have hdelta : (d.delta v0).toInt = ahead d.boottime d.realtime-ahead b r := by
    rw [Device.delta,hr]
    exact clockJumpDelta_toInt (hb.trans h.boottime) (hle.trans h.realtime) h.boottime h.realtime
  have hone := ahead_still hstill
  obtain ⟨hless,hexact⟩ := jump_remaining d.manager d.clock (d.delta v0)
  have hnow := hexact rfl
  have htime : d.clock.time.toNat = d.boottime/nsecPerSec :=
    clockSeconds_toNat d.boottime h.boottime
  unfold remaining at hnow
  rw [htime] at hnow
  rw [Device.clockJump,clockJumpCb_manager,clockJumpCb_readings]
  refine { h with
    close := close_jump (by decide) h.close hnow (by omega) le_rfl
    credit := hless.trans ((Nat.sub_le _ _).trans h.credit)
    taken := ?_
    saved := fun hc => savedClose_mono (h.saved hc) (Nat.le_add_right _ _) }
  intro v1 hv
  obtain rfl := Option.some.inj hv
  exact ⟨d.boottime,d.realtime,rfl,le_rfl,le_rfl,rfl⟩

theorem accepted_expiry {hmac : Hmac} {d : Device} {codeStr : List UInt8} {used : UsedCode}
    (hb : d.boottime ≤ ktimeMax) (hu : acceptedCode hmac d.manager d.clock codeStr = some used)
    (hm : Modest hmac d (.addCode codeStr)) :
    (addCode hmac d.manager d.clock codeStr).2.1.expiryTimeSecs.toNat =
      max (d.boottime/nsecPerSec) d.manager.expiryTimeSecs.toNat+seconds used := by
  have htime : d.clock.time.toNat = d.boottime/nsecPerSec := clockSeconds_toNat d.boottime hb
  have hmax : ktimeMax = 9223372036854775807 := rfl
  have hfive : fiveYearsSecs = 157680000 := rfl
  have hle : d.boottime/nsecPerSec ≤ d.boottime := Nat.div_le_self _ _
  have hstate := addCode_accepted_state hmac d.manager d.clock codeStr used hu
  have hexpiry : (addCode hmac d.manager d.clock codeStr).2.1.expiryTimeSecs.toNat =
      min (max (d.boottime/nsecPerSec) d.manager.expiryTimeSecs.toNat+seconds used)
        18446744073709551615 := by
    rw [hstate]
    show (expiryAfter d.clock (baseSecs d.manager d.clock.time) (spanSecs used.period)).toNat = _
    rw [expiryAfter_of_source d.clock _ _ rfl,saturatingAdd_toNat,baseSecs_toNat,htime]
    rfl
  have hm' : remaining (addCode hmac d.manager d.clock codeStr).2.1 d.clock.time ≤
      fiveYearsSecs := hm
  unfold remaining at hm'
  rw [htime] at hm'
  omega

theorem addCode_near {hmac : Hmac} {d d' : Device} {m : Meter} {codeStr : List UInt8}
    (h : Near e d m) (hm : Modest hmac d (.addCode codeStr))
    (hs : step hmac d (.addCode codeStr) = some d') :
    Near (e+budget Event.cost (emits hmac d (.addCode codeStr))) d'
      (replay Meter.take (emits hmac d (.addCode codeStr)) m) := by
  cases hs
  cases hacc : acceptedCode hmac d.manager d.clock codeStr with
  | none =>
    have hemits : emits hmac d (.addCode codeStr) = [] := by simp [emits,hacc]
    have hexpiry : (addCode hmac d.manager d.clock codeStr).2.1.expiryTimeSecs =
        d.manager.expiryTimeSecs := by
      rw [(addCode_refused hmac d.manager d.clock codeStr hacc).2]
      split_ifs <;> rfl
    rw [hemits,replay_nil,budget_nil,Nat.add_zero]
    refine { h with
      close := ?_
      credit := hm
      saved := fun hc => h.saved ((Bool.and_eq_true _ _).mp hc).1 }
    dsimp only
    rw [hexpiry]
    exact h.close
  | some used =>
    have hemits : emits hmac d (.addCode codeStr) = [.pay (seconds used)] := by simp [emits,hacc]
    rw [hemits,replay_singleton,budget_singleton,Meter.take,Event.cost,h.now]
    exact { h with
      close := close_pay (by decide) h.close (accepted_expiry h.boottime hacc hm) rfl le_rfl
      now := rfl
      credit := hm
      saved := fun hc => by simp at hc }

theorem clearCode_near {hmac : Hmac} {d d' : Device} {m : Meter} (h : Near e d m)
    (hs : step hmac d .clearCode = some d') :
    Near (e+budget Event.cost (emits hmac d .clearCode)) d'
      (replay Meter.take (emits hmac d .clearCode) m) := by
  cases hs
  by_cases hok : d.manager.enabled = true ∧ d.manager.cancelled = false
  · obtain ⟨he,hn⟩ := hok
    have hemits : emits hmac d .clearCode = [.clear] := by
      unfold emits
      rw [clearCode_ok d.manager d.clock he hn]
      rfl
    have hexpiry : (clearCode d.manager d.clock).2.1.expiryTimeSecs.toNat = 0 := by
      rw [clearCode_state d.manager d.clock he hn]
      rfl
    have hnot : (clearCode d.manager d.clock).1.toOption.isNone = false := by
      rw [clearCode_ok d.manager d.clock he hn]
      rfl
    rw [hemits,replay_singleton,budget_singleton,Meter.take,Event.cost,h.now,hnot]
    refine { h with
      now := rfl
      close := ?_
      credit := (CreditBalance.clear_balance d.manager d.clock).trans h.credit
      saved := fun hc => by simp at hc }
    dsimp only
    rw [hexpiry]
    exact close_clear nsecPerSec e d.boottime d.realtime
  · obtain ⟨⟨err,hr⟩,hsame⟩ := clearCode_refused d.manager d.clock (by
      cases he : d.manager.enabled <;> simp_all)
    have hemits : emits hmac d .clearCode = [] := by
      unfold emits
      rw [hr]
      rfl
    rw [hemits,replay_nil,budget_nil,Nat.add_zero,hsame,hr]
    exact { h with saved := fun hc => h.saved ((Bool.and_eq_true _ _).mp hc).1 }

theorem powerCycle_near {hmac : Hmac} {d d' : Device} {m : Meter} {nsecs boottime : ℕ}
    {files : Directory} (h : Near e d m)
    (hs : step hmac d (.powerCycle nsecs boottime files) = some d') :
    Near (e+2*nsecPerSec) d' (m.take (.powerOff nsecs)) := by
  simp only [step] at hs
  split_ifs at hs with hg
  obtain ⟨hcurrent,hreal,hboot,hfiles,hkey⟩ := hg
  obtain ⟨m',hm',rfl⟩ := Option.map_eq_some_iff.mp hs
  obtain ⟨m'',hm'',hexpiry⟩ := loaded_remaining d.saved files _ hfiles hkey hboot hreal
    h.savedCredit
  obtain rfl := Option.some.inj (hm'.symm.trans hm'')
  have hsaved := savedClose_elapse (h.saved hcurrent) nsecs
  have hclock := h.savedClock.trans (Nat.div_le_div_right (Nat.le_add_right d.realtime nsecs))
  rw [Meter.take,h.now]
  refine ⟨hboot,hreal,rfl,close_load (by decide) hsaved hclock hexpiry le_rfl,?_,nofun,
    fun _ => savedClose_mono hsaved (Nat.le_add_right _ _),hclock,h.savedCredit⟩
  have hle := h.savedCredit
  rw [credit_eq _ hboot]
  dsimp only
  omega

theorem step_near {hmac : Hmac} {d d' : Device} {m : Meter} {op : Operation} (h : Near e d m)
    (hm : Modest hmac d op) (hs : step hmac d op = some d') :
    Near (e+budget Event.cost (emits hmac d op)) d' (replay Meter.take (emits hmac d op) m) := by
  cases op with
  | timePasses nsecs =>
    rw [emits,replay_singleton,budget_singleton,Event.cost]
    exact timePasses_near h hs
  | setProvider => exact setProvider_near h hs
  | clockJump =>
    rw [emits,replay_singleton,budget_singleton,Event.cost]
    exact clockJump_near h hs
  | addCode codeStr => exact addCode_near h hm hs
  | clearCode => exact clearCode_near h hs
  | save => exact save_near h hs
  | powerCycle nsecs boottime files =>
    rw [emits,replay_singleton,budget_singleton,Event.cost]
    exact powerCycle_near h hs

theorem started_near (m : EpgManager) {b r : ℕ} (hb : b ≤ ktimeMax) (hr : r ≤ ktimeMax)
    (hc : (started m b r).credit ≤ fiveYearsSecs) :
    Near nsecPerSec (started m b r) (started m b r).meter := by
  have hclock : (started m b r).saved.clockTime.toNat = r/nsecPerSec := clockSeconds_toNat r hr
  have hsecs : (started m b r).saved.expirySeconds.toNat = (started m b r).credit :=
    saveState_expirySeconds m _
  have hcredit := credit_eq (started m b r) hb
  have hclose := close_started (r := r) (by decide) hcredit
  exact ⟨hb,hr,rfl,hclose,hc,nofun,
    fun _ => close_save (by decide) hclose hclock (hsecs.trans hcredit),hclock.le,hsecs.le.trans hc⟩

theorem run_metered {hmac : Hmac} {m : EpgManager} {b r : ℕ} (hb : b ≤ ktimeMax)
    (hr : r ≤ ktimeMax) (hc : (started m b r).credit ≤ fiveYearsSecs) {ops : List Operation}
    {t : Device} (hm : Along (step hmac) (Modest hmac) ops (started m b r))
    (ht : run (step hmac) ops (started m b r) = some t) :
    Near (nsecPerSec+slack hmac ops (started m b r)) t (metered hmac ops (started m b r)) :=
  run_near (fun _ _ _ _ _ h hm hs => step_near h hm hs) (started_near m hb hr hc) hm ht

/-- Over the life of a device whose wall clock is never set, with codes, clears, saves and
power cycles at any moments, its credit is what an exact meter of the wall clock has left
that is told of the same codes: to within a second for each code and each comparison of
the clocks, two for each power cycle, and two for the seconds it begins and ends in. -/
theorem fair_meter (hmac : Hmac) (m : EpgManager) (b r : ℕ) (hb : b ≤ ktimeMax)
    (hr : r ≤ ktimeMax) (hc : (started m b r).credit ≤ fiveYearsSecs) (ops : List Operation)
    (t : Device) (hm : Along (step hmac) (Modest hmac) ops (started m b r))
    (ht : run (step hmac) ops (started m b r) = some t) :
    t.credit*nsecPerSec ≤ (metered hmac ops (started m b r)).left+
        slack hmac ops (started m b r)+2*nsecPerSec ∧
      (metered hmac ops (started m b r)).left ≤
        t.credit*nsecPerSec+slack hmac ops (started m b r)+nsecPerSec := by
  have h := run_metered hb hr hc hm ht
  obtain ⟨habove,hbelow⟩ := close_left (by decide) h.close (credit_eq t h.boottime)
  rw [← h.now] at habove hbelow
  unfold Meter.left
  omega

def evening : Device := started dayOfCredit (100*nsecPerSec) (5000*nsecPerSec+400000000)

def nightOff : List Operation :=
  [.setProvider, .timePasses (3600*nsecPerSec+700000000), .clockJump, .save,
    .timePasses (5*nsecPerSec),
    .powerCycle (36000*nsecPerSec+500000000) (30*nsecPerSec+900000000)
      (directoryOf ⟨8601, 82799, noUsedCodes⟩ (List.replicate 64 0)),
    .setProvider, .timePasses (2000*nsecPerSec), .addCode fiveSeconds, .clockJump]

theorem fair_meter_example :
    ∃ t, run (step zeroHmac) nightOff evening = some t ∧ t.credit = 44799 ∧
      (metered zeroHmac nightOff evening).left = 44798800000000 ∧
      t.credit*nsecPerSec ≤ (metered zeroHmac nightOff evening).left+
        slack zeroHmac nightOff evening+2*nsecPerSec := by
  have h : ((run (step zeroHmac) nightOff evening).any (fun t => t.credit = 44799)) = true := by
    decide +kernel
  obtain ⟨t,ht,hd⟩ := (Option.any_eq_true _ _).mp h
  have hm : Along (step zeroHmac) (Modest zeroHmac) nightOff evening := by decide +kernel
  have hleft : (metered zeroHmac nightOff evening).left = 44798800000000 := by decide +kernel
  exact ⟨t,ht,of_decide_eq_true hd,hleft,(fair_meter zeroHmac dayOfCredit (100*nsecPerSec)
    (5000*nsecPerSec+400000000) (by decide +kernel) (by decide +kernel) (by decide +kernel)
    nightOff t hm ht).1⟩

end EosPayg.FairMeter
