import EosPayg.CodeLedger
import EosPayg.CreditBalance

/-!
# What is used and what is paid

Over the life of a machine the seconds of use are counted beside the codes that are
credited. The power may go at any moment that does not fall into a save, and the next
boot finds all of the last one: what was used since is then charged by the wall clock,
if that is not behind.
-/

set_option autoImplicit false

namespace EosPayg.PaidTime
open EosPayg.PaygCodes EosPayg.ManagerState EosPayg.ManagerCode EosPayg.ManagerFiles
  EosPayg.CodeLedger EosPayg.GuardedRun EosPayg.MachineRuns
open EosPayg.CreditBalance (balance)

/-- The seconds from one time to another in which there is credit. -/
def secondsUsed (m : EpgManager) (now later : UInt64) : ℕ :=
  min later.toNat m.expiryTimeSecs.toNat-min now.toNat m.expiryTimeSecs.toNat

def spends (w : World) : Operation → ℕ
  | .timePasses clock => secondsUsed w.manager w.clock.time clock.time
  | _ => 0

structure Life extends Machine where
  usedSince : ℕ
  used : ℕ

/-- A code that was credited is in the last save before the power goes, and the wall
clock is then at least as far on as the machine was used. -/
def Allowed (l : Life) : Operation → Prop
  | .powerCycle clock _ =>
    l.saved.usedCodes = l.world.manager.usedCodes ∧
      (l.usedSince = 0 ∨ l.saved.clockTime.toNat+l.usedSince ≤ clock.wallclockTime.toNat)
  | _ => True

instance (l : Life) (op : Operation) : Decidable (Allowed l op) :=
  match op with
  | .powerCycle _ _ => inferInstanceAs (Decidable (_ ∧ _))
  | .timePasses _ => isTrue trivial
  | .wallclockTimeChanged _ => isTrue trivial
  | .clearCode => isTrue trivial
  | .addCode _ => isTrue trivial
  | .save => isTrue trivial

def Life.account (l : Life) (op : Operation) (machine : Machine) : Life where
  toMachine := machine
  usedSince := match op with
    | .save => 0
    | _ => l.usedSince+spends l.world op
  used := l.used+spends l.world op

def step (hmac : Hmac) : Life → Operation → Option Life :=
  guarded (fun l op => (l.toMachine.step hmac op).map (l.account op)) Allowed

def born (manager : EpgManager) (clock : EpgClock) : Life := ⟨start manager clock, 0, 0⟩

/-- A machine that uses up its minute of credit, and a little of none. -/
example : secondsUsed { freshManager with expiryTimeSecs := 160 } 130 200 = 30 := by
  decide +kernel

theorem secondsUsed_eq_card (m : EpgManager) (now later : UInt64) :
    secondsUsed m now later =
      ((Finset.Ico now.toNat later.toNat).filter (· < m.expiryTimeSecs.toNat)).card := by
  have hfilter : (Finset.Ico now.toNat later.toNat).filter (· < m.expiryTimeSecs.toNat) =
      Finset.Ico now.toNat (min later.toNat m.expiryTimeSecs.toNat) := by
    ext s
    simp only [Finset.mem_filter,Finset.mem_Ico,lt_min_iff]
    tauto
  rw [hfilter,Nat.card_Ico]
  unfold secondsUsed
  omega

theorem remaining_used (m : EpgManager) (now later : UInt64) (h : now ≤ later) :
    secondsUsed m now later+remaining m later = remaining m now := by
  have hn := UInt64.le_iff_toNat_le.mp h
  unfold secondsUsed remaining
  omega

theorem remaining_accepted (hmac : Hmac) (self : EpgManager) (clock : EpgClock)
    (s : List UInt8) (used : UsedCode) (h : acceptedCode hmac self clock s = some used) :
    remaining (addCode hmac self clock s).2.1 clock.time ≤
      remaining self clock.time+seconds used := by
  have hx := expiryAfter_toNat_le clock (baseSecs self clock.time) (spanSecs used.period)
  have hb := baseSecs_toNat self clock.time
  rw [addCode_accepted_state hmac self clock s used h]
  unfold remaining seconds
  dsimp only
  omega

theorem creditLeft_le_sub (t x w : ℕ) : creditLeft t x w ≤ x-(w-t) := by
  have hl : bogusCreditLowerLimitSecs.toNat = 157680000 := rfl
  have hp : typicalPaymentSecs.toNat = 2678400 := rfl
  unfold creditLeft
  split_ifs with h
  · omega
  · exact le_rfl

theorem step_some {hmac : Hmac} {l l' : Life} {op : Operation} :
    step hmac l op = some l' ↔ Allowed l op ∧ l.Finds op ∧
      ∃ w, l.world.step hmac op = some w ∧ l' = l.account op (l.toMachine.account hmac op w) := by
  rw [step,guarded_some,Option.map_eq_some_iff]
  simp only [MachineRuns.step_some]
  constructor
  · rintro ⟨ha,-,⟨hf,w,hw,rfl⟩,rfl⟩
    exact ⟨ha,hf,w,hw,rfl⟩
  · rintro ⟨ha,hf,w,hw,rfl⟩
    exact ⟨ha,_,⟨hf,w,hw,rfl⟩,rfl⟩

/-- Nothing is used that was not there or paid for, and the last save does not say
otherwise. -/
structure Accounted (hmac : Hmac) (m : EpgManager) (credit : ℕ) (l : Life) : Prop where
  used : l.used+balance l.world ≤ credit+(l.credited.map seconds).sum
  since : l.usedSince ≤ l.used
  saved : l.used-l.usedSince+l.saved.expirySeconds.toNat ≤ credit+(l.credited.map seconds).sum
  nodup : l.credited.Nodup
  fresh : ∀ c ∈ l.credited, c ∉ m.usedCodes.codes
  spent : ∀ c, c ∈ l.world.manager.usedCodes.codes ↔ c ∈ m.usedCodes.codes ∨ c ∈ l.credited
  verified : ∀ c ∈ l.credited, ∃ s, verifiedCode hmac m.keyBytes s = some c
  key : l.world.manager.keyBytes = m.keyBytes

theorem born_accounted (hmac : Hmac) (m : EpgManager) (clock : EpgClock) :
    Accounted hmac m (remaining m clock.time) (born m clock) := by
  refine ⟨?_,le_rfl,?_,List.nodup_nil,List.forall_mem_nil _,fun c => by simp [born,start],
    List.forall_mem_nil _,rfl⟩
  · exact (Nat.zero_add _).le
  · show 0-0+(saveState m clock).expirySeconds.toNat ≤ _
    rw [saveState_expirySeconds]
    simp

theorem world_accounted {hmac : Hmac} {m : EpgManager} {credit secs : ℕ} {l : Life} {w : World}
    (h : Accounted hmac m credit l) (hb : secs+balance w ≤ balance l.world)
    (hc : w.manager.usedCodes = l.world.manager.usedCodes)
    (hk : w.manager.keyBytes = l.world.manager.keyBytes) :
    Accounted hmac m credit
      ⟨⟨w, l.saved, l.credited++[]⟩, l.usedSince+secs, l.used+secs⟩ := by
  rw [List.append_nil]
  refine ⟨?_,Nat.add_le_add_right h.since _,?_,h.nodup,h.fresh,?_,h.verified,hk.trans h.key⟩
  · have hused := h.used
    dsimp only
    omega
  · have hsaved := h.saved
    dsimp only
    omega
  · show ∀ c, c ∈ w.manager.usedCodes.codes ↔ _
    rw [hc]
    exact h.spent

theorem manager_accounted {hmac : Hmac} {m m' : EpgManager} {credit : ℕ} {l : Life}
    (h : Accounted hmac m credit l)
    (hb : remaining m' l.world.clock.time ≤ remaining l.world.manager l.world.clock.time)
    (hc : m'.usedCodes = l.world.manager.usedCodes)
    (hk : m'.keyBytes = l.world.manager.keyBytes) :
    Accounted hmac m credit
      ⟨⟨⟨m', l.world.clock⟩, l.saved, l.credited++[]⟩, l.usedSince, l.used⟩ := by
  have hzero : 0+balance ⟨m', l.world.clock⟩ ≤ balance l.world := (Nat.zero_add _).le.trans hb
  exact world_accounted h hzero hc hk

theorem jump_keeps (self : EpgManager) (clock : EpgClock) (delta : Int64) :
    (wallclockTimeChanged self clock delta).1.usedCodes = self.usedCodes ∧
      (wallclockTimeChanged self clock delta).1.keyBytes = self.keyBytes := by
  rw [wallclockTimeChanged_state]
  split_ifs <;> exact ⟨rfl,rfl⟩

theorem clear_keeps (self : EpgManager) (clock : EpgClock) :
    (clearCode self clock).2.1.usedCodes = self.usedCodes ∧
      (clearCode self clock).2.1.keyBytes = self.keyBytes := by
  rcases clearCode_cases self clock with ⟨he,hn⟩ | h
  · rw [clearCode_state self clock he hn]
    exact ⟨rfl,rfl⟩
  · rw [h]
    exact ⟨rfl,rfl⟩

theorem addCode_accounted {hmac : Hmac} {m : EpgManager} {credit : ℕ} {l : Life}
    (h : Accounted hmac m credit l) (codeStr : List UInt8) :
    Accounted hmac m credit (l.account (.addCode codeStr) (l.toMachine.account hmac
      (.addCode codeStr) { l.world with
        manager := (addCode hmac l.world.manager l.world.clock codeStr).2.1 })) := by
  obtain ⟨-,-,hkey⟩ := addCode_settings hmac l.world.manager l.world.clock codeStr
  show Accounted hmac m credit ⟨⟨⟨(addCode hmac l.world.manager l.world.clock codeStr).2.1,
    l.world.clock⟩, l.saved, l.credited++(acceptedCode hmac l.world.manager l.world.clock
      codeStr).toList⟩, l.usedSince, l.used⟩
  cases hacc : acceptedCode hmac l.world.manager l.world.clock codeStr with
  | none =>
    have hb := CreditBalance.refused_balance hmac l.world.manager l.world.clock codeStr
      (by obtain ⟨⟨e,hr⟩,-⟩ := addCode_refused hmac l.world.manager l.world.clock codeStr hacc
          rw [hr]
          rfl)
    exact manager_accounted h hb.le (refused_keeps hmac _ _ codeStr hacc) hkey
  | some used =>
    obtain ⟨-,hv,hu⟩ := (acceptedCode_iff hmac l.world.manager l.world.clock codeStr used).mp hacc
    have hr := remaining_accepted hmac l.world.manager l.world.clock codeStr used hacc
    have hsum : ((l.credited++(some used).toList).map seconds).sum =
        (l.credited.map seconds).sum+seconds used := by simp
    have hmem : ∀ c, c ∈ l.credited++(some used).toList ↔ c ∈ l.credited ∨ c = used := by simp
    have hnew : used ∉ m.usedCodes.codes ∧ used ∉ l.credited :=
      not_or.mp (fun hc => hu ((h.spent used).mpr hc))
    refine ⟨?_,h.since,?_,?_,?_,?_,?_,hkey.trans h.key⟩
    · show l.used+remaining (addCode hmac l.world.manager l.world.clock codeStr).2.1
          l.world.clock.time ≤ credit+((l.credited++(some used).toList).map seconds).sum
      rw [hsum]
      have hused := h.used
      unfold balance at hused
      omega
    · rw [hsum]
      exact h.saved.trans (by omega)
    · exact List.nodup_append.mpr ⟨h.nodup,List.nodup_singleton used,fun c hc d hd => by
        rw [List.mem_singleton.mp hd]
        rintro rfl
        exact hnew.2 hc⟩
    · intro c hc
      rcases (hmem c).mp hc with hc | rfl
      · exact h.fresh c hc
      · exact hnew.1
    · intro c
      show c ∈ (addCode hmac l.world.manager l.world.clock codeStr).2.1.usedCodes.codes ↔ _
      rw [mem_addCode,hacc,h.spent c,hmem c,Option.some.injEq,eq_comm,or_assoc]
    · intro c hc
      rcases (hmem c).mp hc with hc | rfl
      · exact h.verified c hc
      · exact ⟨codeStr,h.key ▸ hv⟩

theorem powerCycle_accounted {hmac : Hmac} {m m' : EpgManager} {credit : ℕ} {l : Life}
    (h : Accounted hmac m credit l) {clock : EpgClock} {files : Directory}
    (ha : Allowed l (.powerCycle clock files)) (hf : l.Finds (.powerCycle clock files))
    (hm : initialise clock files = some m') :
    Accounted hmac m credit (l.account (.powerCycle clock files)
      (l.toMachine.account hmac (.powerCycle clock files) ⟨m', clock⟩)) := by
  obtain ⟨hcodes,hwall⟩ := ha
  have hi := initialise_holds hm hf.1 hf.2
  have hload : remaining m' clock.time ≤ l.saved.expirySeconds.toNat-l.usedSince := by
    have hle : remaining m' clock.time ≤ creditLeft l.saved.clockTime.toNat
        l.saved.expirySeconds.toNat clock.wallclockTime.toNat := by
      rw [← creditOnLoad_toNat,hi]
      exact CreditBalance.remaining_expiryAfter_le _ clock _ rfl
    have hcharge := creditLeft_le_sub l.saved.clockTime.toNat l.saved.expirySeconds.toNat
      clock.wallclockTime.toNat
    omega
  unfold Life.account Machine.account credits
  rw [List.append_nil]
  refine ⟨?_,h.since,h.saved,h.nodup,h.fresh,?_,h.verified,?_⟩
  · show l.used+remaining m' clock.time ≤ credit+(l.credited.map seconds).sum
    have hused := h.used
    have hsaved := h.saved
    have hsince := h.since
    omega
  · show ∀ c, c ∈ m'.usedCodes.codes ↔ _
    rw [hi]
    show ∀ c, c ∈ l.saved.usedCodes.codes ↔ _
    rw [hcodes]
    exact h.spent
  · rw [hi]
    exact h.key

theorem step_accounted {hmac : Hmac} {m : EpgManager} {credit : ℕ} {l l' : Life}
    {op : Operation} (h : Accounted hmac m credit l) (hs : step hmac l op = some l') :
    Accounted hmac m credit l' := by
  obtain ⟨ha,hf,w,hw,rfl⟩ := step_some.mp hs
  cases op with
  | timePasses clock =>
    simp only [World.step] at hw
    split_ifs at hw with ht
    cases hw
    exact world_accounted h (remaining_used l.world.manager _ _ ht).le rfl rfl
  | wallclockTimeChanged delta =>
    cases hw
    obtain ⟨hc,hk⟩ := jump_keeps l.world.manager l.world.clock delta
    exact manager_accounted h (CreditBalance.jump_balance _ _ delta) hc hk
  | clearCode =>
    cases hw
    obtain ⟨hc,hk⟩ := clear_keeps l.world.manager l.world.clock
    exact manager_accounted h (CreditBalance.clear_balance _ _) hc hk
  | addCode codeStr =>
    cases hw
    exact addCode_accounted h codeStr
  | save =>
    cases hw
    unfold Life.account Machine.account credits
    rw [List.append_nil]
    refine ⟨h.used,Nat.zero_le _,?_,h.nodup,h.fresh,h.spent,h.verified,h.key⟩
    show l.used-0+(saveState l.world.manager l.world.clock).expirySeconds.toNat ≤ _
    rw [saveState_expirySeconds]
    exact h.used
  | powerCycle clock files =>
    obtain ⟨m',hm,rfl⟩ := Option.map_eq_some_iff.mp hw
    exact powerCycle_accounted h ha hf hm

/-- However a machine is used, over any number of boots that each find the last save and
any jumps of its clock, the seconds of use and what is left of the credit never exceed
the credit it began with and the periods of the codes that were entered: all of them
codes that verify under its key, no one credited twice and none that was used before. -/
theorem paid_time (hmac : Hmac) (m : EpgManager) (clock : EpgClock) (ops : List Operation)
    (t : Life) (hr : run (step hmac) ops (born m clock) = some t) :
    t.used+balance t.world ≤ remaining m clock.time+(t.credited.map seconds).sum ∧
      t.credited.Nodup ∧ (∀ c ∈ t.credited, c ∉ m.usedCodes.codes) ∧
      (∀ c ∈ t.credited, ∃ s, verifiedCode hmac m.keyBytes s = some c) ∧
      ∀ c, c ∈ t.world.manager.usedCodes.codes ↔ c ∈ m.usedCodes.codes ∨ c ∈ t.credited := by
  have h : Accounted hmac m (remaining m clock.time) t :=
    run_invariant (fun _ _ _ hi hs => step_accounted hi hs) (born_accounted hmac m clock) hr
  exact ⟨h.used,h.nodup,h.fresh,h.verified,h.spent⟩

def interrupted : List Operation :=
  [.addCode fiveSeconds, .save, .timePasses ⟨2003, 5003, true⟩,
    .powerCycle ⟨20, 5004, true⟩
      (directoryOf ⟨5000, 5, gArraySort [⟨1, .period5Seconds⟩]⟩ (List.replicate 64 0)),
    .addCode fiveSeconds, .timePasses ⟨30, 5014, true⟩]

theorem paid_time_example :
    ∃ t, run (step zeroHmac) interrupted (born freshManager ⟨2000, 5000, true⟩) = some t ∧
      t.used = 4 ∧ t.used+balance t.world ≤
        remaining freshManager 2000+(t.credited.map seconds).sum := by
  obtain ⟨t,ht⟩ := Option.isSome_iff_exists.mp
    (show (run (step zeroHmac) interrupted (born freshManager ⟨2000, 5000, true⟩)).isSome by
      decide +kernel)
  have hd : (run (step zeroHmac) interrupted (born freshManager ⟨2000, 5000, true⟩)).map
      Life.used = some 4 := by decide +kernel
  rw [ht] at hd
  exact ⟨t,ht,Option.some.inj hd,
    (paid_time zeroHmac freshManager ⟨2000, 5000, true⟩ interrupted t ht).1⟩

end EosPayg.PaidTime
