import EosPayg.MachineRuns

/-!
# The credit across clock jumps, refused codes and restarts

The balance of a machine is the credit the user has left. No operation but an
accepted code raises the balance. The off time of a machine whose hardware clock was slow is
charged in two parts, on load and on the later correction of the clock.
-/

set_option autoImplicit false

namespace EosPayg.CreditBalance
open EosPayg.WordArithmetic EosPayg.PaygCodes EosPayg.ManagerState EosPayg.ManagerCode
  EosPayg.ManagerFiles EosPayg.GuardedRun EosPayg.MachineRuns

/-- Codes are refused. The power goes right after a save. -/
def Allowed (hmac : Hmac) (w : World) : Operation → Prop
  | .addCode codeStr => (addCode hmac w.manager w.clock codeStr).1.toOption = none
  | .powerCycle _ files => Holds files (saveState w.manager w.clock) ∧ files .key ≠ none
  | _ => True

instance (hmac : Hmac) (w : World) (op : Operation) : Decidable (Allowed hmac w op) :=
  match op with
  | .addCode _ => inferInstanceAs (Decidable (_ = _))
  | .powerCycle _ _ => inferInstanceAs (Decidable (_ ∧ _))
  | .timePasses _ => isTrue trivial
  | .wallclockTimeChanged _ => isTrue trivial
  | .clearCode => isTrue trivial
  | .save => isTrue trivial

def step (hmac : Hmac) : World → Operation → Option World :=
  guarded (World.step hmac) (Allowed hmac)

def balance (w : World) : ℕ := remaining w.manager w.clock.time

theorem remaining_antitone (self : EpgManager) (now later : UInt64) (h : now ≤ later) :
    remaining self later ≤ remaining self now := by
  have := UInt64.le_iff_toNat_le.mp h
  unfold remaining
  omega

theorem remaining_expiryAfter_le (self : EpgManager) (clock : EpgClock) (span : UInt64)
    (h : self.expiryTimeSecs = expiryAfter clock clock.time span) :
    remaining self clock.time ≤ span.toNat := by
  have hx := expiryAfter_toNat_le clock clock.time span
  unfold remaining
  rw [h]
  omega

theorem jump_balance (self : EpgManager) (clock : EpgClock) (delta : Int64) :
    remaining (wallclockTimeChanged self clock delta).1 clock.time ≤
      remaining self clock.time := by
  rw [wallclockTimeChanged_state]
  split_ifs with hz hp
  · exact le_rfl
  · apply (remaining_expiryAfter_le _ clock _ rfl).trans
    rw [spanAfterJump_toNat self clock _ hp.2]
    exact Nat.sub_le _ _
  · exact le_rfl

theorem clear_balance (self : EpgManager) (clock : EpgClock) :
    remaining (clearCode self clock).2.1 clock.time ≤ remaining self clock.time := by
  rcases clearCode_cases self clock with ⟨he,hn⟩ | h
  · rw [clearCode_state self clock he hn]
    unfold remaining
    rw [UInt64.toNat_zero]
    omega
  · rw [h]

theorem refused_balance (hmac : Hmac) (self : EpgManager) (clock : EpgClock)
    (s : List UInt8) (h : (addCode hmac self clock s).1.toOption = none) :
    remaining (addCode hmac self clock s).2.1 clock.time = remaining self clock.time := by
  cases hk : acceptedCode hmac self clock s with
  | some used =>
    rw [addCode_accepted hmac self clock s used hk] at h
    cases h
  | none =>
    rw [(addCode_refused hmac self clock s hk).2]
    split_ifs <;> rfl

theorem creditLeft_le (t x w : ℕ) : creditLeft t x w ≤ x := by
  have hl : bogusCreditLowerLimitSecs.toNat = 157680000 := rfl
  have hp : typicalPaymentSecs.toNat = 2678400 := rfl
  unfold creditLeft
  split_ifs with h
  · omega
  · exact Nat.sub_le _ _

theorem restart_balance (clock old : EpgClock) (self m : EpgManager) (files : Directory)
    (hs : Holds files (saveState self old)) (hk : files .key ≠ none)
    (hm : initialise clock files = some m) :
    remaining m clock.time ≤ remaining self old.time := by
  obtain ⟨key,hkey⟩ := Option.ne_none_iff_exists'.mp hk
  have hi := initialise_saved clock files _ key hs hkey
  rw [hm,Option.some.injEq] at hi
  rw [hi]
  apply (remaining_expiryAfter_le _ clock _ rfl).trans
  rw [creditOnLoad_toNat,← saveState_expirySeconds]
  exact creditLeft_le _ _ _

/-- No step raises the balance. -/
theorem step_balance (hmac : Hmac) (w w' : World) (op : Operation)
    (h : step hmac w op = some w') : balance w' ≤ balance w := by
  obtain ⟨hp,hs⟩ := guarded_some.mp h
  cases op with
  | timePasses clock =>
    simp only [World.step] at hs
    split_ifs at hs with ht
    cases hs
    exact remaining_antitone w.manager _ _ ht
  | wallclockTimeChanged delta =>
    cases hs
    exact jump_balance w.manager w.clock delta
  | clearCode =>
    cases hs
    exact clear_balance w.manager w.clock
  | addCode codeStr =>
    cases hs
    exact (refused_balance hmac w.manager w.clock codeStr hp).le
  | save =>
    cases hs
    exact le_rfl
  | powerCycle clock files =>
    obtain ⟨m,hm,rfl⟩ := Option.map_eq_some_iff.mp hs
    exact restart_balance clock w.clock w.manager m files hp.1 hp.2 hm

/-- Over every run without an accepted code, from any state and in any order
of operations, the remaining credit never increases. -/
theorem credit_never_increases (hmac : Hmac) (w w' : World) (ops : List Operation)
    (h : run (step hmac) ops w = some w') : balance w' ≤ balance w :=
  run_antitone (P := fun _ _ => True) (fun s a s' _ hs => step_balance hmac s s' a hs)
    (along_true (fun _ _ => trivial) ops w) h

def paidDay : World := ⟨{ freshManager with expiryTimeSecs := 86500 }, ⟨100, 5000, true⟩⟩

def clockTricks : List Operation :=
  [.wallclockTimeChanged (-3600), .timePasses ⟨100, 1400, true⟩,
    .powerCycle ⟨20, 1460, true⟩ (directoryOf ⟨1400, 86400, noUsedCodes⟩ (List.replicate 64 0)),
    .wallclockTimeChanged 3600, .addCode [49]]

theorem credit_never_increases_example :
    ∃ w, run (step zeroHmac) clockTricks paidDay = some w ∧ balance w ≤ balance paidDay := by
  have h : (run (step zeroHmac) clockTricks paidDay).isSome = true := by decide +kernel
  obtain ⟨w,hw⟩ := Option.isSome_iff_exists.mp h
  exact ⟨w,hw,credit_never_increases zeroHmac paidDay w clockTricks hw⟩

def fiveYearsSecs : ℕ := 5*365*24*60*60

theorem remaining_expiryAfter (self : EpgManager) (clock : EpgClock) (span : UInt64)
    (hb : clock.time.toNat < 2^63) (hs : span.toNat ≤ fiveYearsSecs)
    (h : self.expiryTimeSecs = expiryAfter clock clock.time span) :
    remaining self clock.time = if clock.sourceNewSeconds then span.toNat else 0 := by
  have hf : fiveYearsSecs = 157680000 := rfl
  have hadd : (saturatingAdd clock.time span).toNat = clock.time.toNat+span.toNat := by
    rw [saturatingAdd_toNat]
    omega
  have hm : saturatingAdd clock.time span ≠ maxWord := by
    rw [word_ne_iff,hadd,maxWord_toNat]
    omega
  unfold remaining
  rw [h,expiryAfter]
  cases clock.sourceNewSeconds with
  | false =>
    rw [if_pos ⟨hm,rfl⟩]
    simp
  | true =>
    rw [if_neg (by simp),hadd]
    simp

theorem creditLeft_small (t x w : ℕ) (h : x ≤ fiveYearsSecs) : creditLeft t x w = x-(w-t) := by
  have hl : bogusCreditLowerLimitSecs.toNat = fiveYearsSecs := rfl
  unfold creditLeft
  rw [if_neg]
  omega

theorem remaining_after_jump (self : EpgManager) (clock : EpgClock) (s : ℕ) (hs : s < 2^63)
    (hb : clock.time.toNat < 2^63) (hc : remaining self clock.time ≤ fiveYearsSecs) :
    remaining (wallclockTimeChanged self clock (Int64.ofNat s)).1 clock.time =
      if s = 0 ∨ clock.sourceNewSeconds = true then remaining self clock.time-s else 0 := by
  rw [wallclockTimeChanged_state]
  by_cases hz : s = 0
  · subst hz
    simp
  · have hpos : 0 < Int64.ofNat s := (ofNat_pos s hs).mpr (Nat.pos_of_ne_zero hz)
    have hne : Int64.ofNat s ≠ 0 := by
      intro h
      rw [h] at hpos
      exact absurd hpos (by decide)
    rw [if_neg hne]
    by_cases ht : clock.time < self.expiryTimeSecs
    · have hspan := spanAfterJump_toNat self clock (Int64.ofNat s).toUInt64 ht
      rw [ofNat_toUInt64 s hs] at hspan
      rw [if_pos ⟨hpos,ht⟩,remaining_expiryAfter _ clock _ hb (by omega) rfl,hspan]
      simp [hz]
    · have hr : remaining self clock.time = 0 := by
        have := UInt64.le_iff_toNat_le.mp (UInt64.not_lt.mp ht)
        unfold remaining
        omega
      rw [if_neg (fun h => ht h.2)]
      show remaining self clock.time = _
      rw [hr]
      simp

/-- Loaded from the files of a save and corrected within the same boot second,
the credit is charged the off time exactly once if and only if there was no
more credit than that, or the wall clock read no earlier at boot than at the
save and the expiry timers could be created. -/
theorem charged_once_iff (saved : SavedState) (files : Directory) (key : List UInt8)
    (hf : Holds files saved) (hk : files .key = some key) (load jump : EpgClock) (d s : ℕ)
    (hc : saved.expirySeconds.toNat ≤ fiveYearsSecs)
    (hw : load.wallclockTime.toNat+s = saved.clockTime.toNat+d) (hs : s < 2^63)
    (hj : jump.time = load.time) (hb : load.time.toNat < 2^63) :
    ∃ m, initialise load files = some m ∧
      (remaining (wallclockTimeChanged m jump (Int64.ofNat s)).1 jump.time =
          saved.expirySeconds.toNat-d ↔
        saved.expirySeconds.toNat ≤ d ∨ (s ≤ d ∧ load.sourceNewSeconds = true ∧
          (s = 0 ∨ jump.sourceNewSeconds = true))) := by
  refine ⟨_,initialise_saved load files saved key hf hk,?_⟩
  have hl : (creditOnLoad saved.clockTime saved.expirySeconds load.wallclockTime).toNat =
      saved.expirySeconds.toNat-(d-s) := by
    rw [creditOnLoad_toNat,creditLeft_small _ _ _ hc]
    omega
  have hr := remaining_expiryAfter (loadedManager load saved key (files .accountId)) load _ hb
    (by omega) rfl
  rw [hl] at hr
  have ha := remaining_after_jump (loadedManager load saved key (files .accountId)) jump s hs
    (hj ▸ hb) (by rw [hj,hr]; split_ifs <;> omega)
  rw [ha,hj,hr]
  by_cases hlo : load.sourceNewSeconds = true
  · by_cases hjo : s = 0 ∨ jump.sourceNewSeconds = true
    · rw [if_pos hjo,if_pos hlo,and_iff_right hlo,and_iff_left hjo]
      omega
    · rw [if_neg hjo]
      simp only [hjo,and_false,or_false]
      omega
  · rw [if_neg hlo]
    simp only [hlo,Bool.false_eq_true,false_and,and_false,or_false]
    split_ifs <;> omega

/-- A day of credit saved at 5000; an hour off with the clock an hour slow. -/
theorem charged_once_example :
    ∃ m, initialise ⟨30, 5000, true⟩
        (directoryOf ⟨5000, 86400, noUsedCodes⟩ (List.replicate 64 0)) = some m ∧
      (remaining (wallclockTimeChanged m ⟨30, 8600, true⟩ (Int64.ofNat 3600)).1 30 =
          86400-3600 ↔
        86400 ≤ 3600 ∨ (3600 ≤ 3600 ∧ true = true ∧ (3600 = 0 ∨ true = true))) :=
  charged_once_iff ⟨5000, 86400, noUsedCodes⟩ _ (List.replicate 64 0)
    (directoryOf_holds _ _) rfl ⟨30, 5000, true⟩ ⟨30, 8600, true⟩ 3600 3600
    (by decide) (by decide) (by decide) rfl (by decide)

/-- Saved at 5000 and started a minute later with the clock back at zero, a
machine with two hours of credit is charged 5060 seconds. -/
theorem slow_clock_overcharged :
    ¬ ∀ (W c d s b w : UInt64), c.toNat ≤ fiveYearsSecs →
      w.toNat+s.toNat = W.toNat+d.toNat →
      ∀ m, initialise ⟨b, w, true⟩
          (directoryOf ⟨W, c, noUsedCodes⟩ (List.replicate 64 0)) = some m →
        remaining (wallclockTimeChanged m ⟨b, w+s, true⟩ s.toInt64).1 b = c.toNat-d.toNat := by
  intro h
  have hm := initialise_saved ⟨30, 0, true⟩ _ ⟨5000, 7200, noUsedCodes⟩ (List.replicate 64 0)
    (directoryOf_holds _ _) rfl
  have hr := h 5000 7200 60 5060 30 0 (by decide) (by decide) _ hm
  exact absurd hr (by decide)

end EosPayg.CreditBalance
