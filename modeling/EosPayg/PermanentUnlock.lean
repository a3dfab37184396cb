import EosPayg.MachineRuns

/-!
# What becomes of a permanent unlock

An infinite code puts the expiry time at the end of time, which is the largest
word and nothing else marks it. Further codes leave it there. A forward jump of
the wall clock, or a restart whose boot clock reads less than the time that has
passed, derives the expiry time anew from a difference and loses it.
-/

set_option autoImplicit false

namespace EosPayg.PermanentUnlock
open EosPayg.WordArithmetic EosPayg.PaygCodes EosPayg.ManagerState EosPayg.ManagerCode
  EosPayg.ManagerFiles EosPayg.GuardedRun EosPayg.MachineRuns

/-- No code is cleared. The power goes right after a save, and the wall clock has not
gone back at the next boot. -/
def Allowed (w : World) : Operation → Prop
  | .clearCode => False
  | .powerCycle clock files =>
    Holds files (saveState w.manager w.clock) ∧ files .key ≠ none ∧
      w.clock.wallclockTime ≤ clock.wallclockTime
  | _ => True

instance (w : World) (op : Operation) : Decidable (Allowed w op) :=
  match op with
  | .clearCode => isFalse id
  | .powerCycle _ _ => inferInstanceAs (Decidable (_ ∧ _))
  | .timePasses _ => isTrue trivial
  | .wallclockTimeChanged _ => isTrue trivial
  | .addCode _ => isTrue trivial
  | .save => isTrue trivial

def step (hmac : Hmac) : World → Operation → Option World := guarded (World.step hmac) Allowed

def Unlocked (w : World) : Prop := w.manager.expiryTimeSecs = maxWord

def secondsLeft (old clock : EpgClock) : ℕ :=
  maxWord.toNat-old.time.toNat-(clock.wallclockTime.toNat-old.wallclockTime.toNat)

/-- The wall clock does not jump forward, and a restart reads a boot clock from
which what is left reaches the end of time. -/
def KeepsUnlock (w : World) : Operation → Prop
  | .wallclockTimeChanged delta => ¬(0 < delta ∧ w.clock.time < maxWord)
  | .powerCycle clock _ =>
    (¬ Bogus (secondsLeft w.clock clock) ∧
      maxWord.toNat ≤ clock.time.toNat+secondsLeft w.clock clock) ∨
    (Bogus (secondsLeft w.clock clock) ∧
      maxWord.toNat ≤ clock.time.toNat+typicalPaymentSecs.toNat)
  | _ => True

theorem saturatingAdd_max_iff (a b : UInt64) :
    saturatingAdd a b = maxWord ↔ maxWord.toNat ≤ a.toNat+b.toNat := by
  rw [word_ext_iff,saturatingAdd_toNat,maxWord_toNat]
  omega

theorem expiryAfter_max_iff (clock : EpgClock) (base span : UInt64) :
    expiryAfter clock base span = maxWord ↔ maxWord.toNat ≤ base.toNat+span.toNat := by
  rw [← saturatingAdd_max_iff]
  unfold expiryAfter
  split_ifs with h
  · constructor
    · intro hb
      rw [saturatingAdd_max_iff,hb]
      exact Nat.le_add_right _ _
    · intro hs
      exact absurd hs h.1
  · exact Iff.rfl

theorem infinite_unlocks (hmac : Hmac) (self : EpgManager) (clock : EpgClock)
    (codeStr : List UInt8) (used : UsedCode)
    (h : acceptedCode hmac self clock codeStr = some used) (hp : used.period = .infinite) :
    (addCode hmac self clock codeStr).2.1.expiryTimeSecs = maxWord := by
  rw [addCode_accepted_state hmac self clock codeStr used h]
  show expiryAfter clock (baseSecs self clock.time) (spanSecs used.period) = maxWord
  rw [expiryAfter_max_iff,hp]
  exact Nat.le_add_left _ _

theorem addCode_unlocked (hmac : Hmac) (self : EpgManager) (clock : EpgClock)
    (codeStr : List UInt8) (hu : self.expiryTimeSecs = maxWord) :
    (addCode hmac self clock codeStr).2.1.expiryTimeSecs = maxWord := by
  cases h : acceptedCode hmac self clock codeStr with
  | none =>
    rw [(addCode_refused hmac self clock codeStr h).2]
    split_ifs <;> exact hu
  | some used =>
    rw [addCode_accepted_state hmac self clock codeStr used h]
    show expiryAfter clock (baseSecs self clock.time) (spanSecs used.period) = maxWord
    have hbase : baseSecs self clock.time = maxWord := by
      have ht := word_lt clock.time
      unfold baseSecs
      rw [hu]
      split_ifs with hlt
      · rfl
      · have := UInt64.le_iff_toNat_le.mp (UInt64.not_lt.mp hlt)
        rw [maxWord_toNat] at this
        rw [word_ext_iff,maxWord_toNat]
        omega
    rw [expiryAfter_max_iff,hbase]
    exact Nat.le_add_right _ _

theorem jump_unlocked_iff (self : EpgManager) (clock : EpgClock) (delta : Int64)
    (hu : self.expiryTimeSecs = maxWord) :
    (wallclockTimeChanged self clock delta).1.expiryTimeSecs = maxWord ↔
      ¬(0 < delta ∧ clock.time < maxWord) := by
  rw [wallclockTimeChanged_state]
  by_cases hz : delta = 0
  · rw [if_pos hz,hz]
    exact iff_of_true hu (fun h => absurd h.1 (by decide))
  · rw [if_neg hz]
    by_cases hj : 0 < delta ∧ clock.time < maxWord
    · have hd := toUInt64_toNat delta hj.1
      have hd0 : 0 < delta.toInt := by simpa using Int64.lt_iff_toInt_lt.mp hj.1
      have ht := UInt64.lt_iff_toNat_lt.mp hj.2
      have hspan := spanAfterJump_toNat self clock delta.toUInt64 (hu ▸ hj.2)
      unfold remaining at hspan
      rw [hu] at hspan
      rw [if_pos ⟨hj.1,hu ▸ hj.2⟩]
      show expiryAfter clock clock.time _ = maxWord ↔ _
      rw [expiryAfter_max_iff,hspan]
      constructor
      · intro h
        omega
      · intro h
        exact absurd hj h
    · rw [if_neg (fun h => hj ⟨h.1,hu ▸ h.2⟩)]
      exact iff_of_true hu hj

theorem restart_unlocked_iff (old clock : EpgClock) (self m : EpgManager) (files : Directory)
    (hu : self.expiryTimeSecs = maxWord) (hs : Holds files (saveState self old))
    (hk : files .key ≠ none) (hw : old.wallclockTime ≤ clock.wallclockTime)
    (hm : initialise clock files = some m) :
    m.expiryTimeSecs = maxWord ↔
      (¬ Bogus (secondsLeft old clock) ∧
        maxWord.toNat ≤ clock.time.toNat+secondsLeft old clock) ∨
      (Bogus (secondsLeft old clock) ∧
        maxWord.toNat ≤ clock.time.toNat+typicalPaymentSecs.toNat) := by
  obtain ⟨key,hkey⟩ := Option.ne_none_iff_exists'.mp hk
  have hi := initialise_saved clock files _ key hs hkey
  rw [hm,Option.some.injEq] at hi
  have hx := saveState_expirySeconds self old
  have hr : remaining self old.time = maxWord.toNat-old.time.toNat := by rw [remaining,hu]
  rw [hi]
  show expiryAfter clock clock.time (creditOnLoad _ _ _) = maxWord ↔ _
  rw [expiryAfter_max_iff,creditOnLoad_toNat,hx,hr]
  show maxWord.toNat ≤ clock.time.toNat+creditLeft old.wallclockTime.toNat _ _ ↔ _
  have hle := UInt64.le_iff_toNat_le.mp hw
  have hcredit : creditLeft old.wallclockTime.toNat (maxWord.toNat-old.time.toNat)
      clock.wallclockTime.toNat =
      if Bogus (secondsLeft old clock) then typicalPaymentSecs.toNat
      else secondsLeft old clock := by
    by_cases hb : Bogus (secondsLeft old clock)
    · rw [if_pos hb]
      exact if_pos ⟨hle,hb⟩
    · rw [if_neg hb]
      exact if_neg (fun h => hb h.2)
  rw [hcredit]
  split_ifs with hb
  · simp only [hb,not_true_eq_false,false_and,true_and,false_or]
  · simp only [hb,not_false_eq_true,false_and,true_and,or_false]

theorem step_unlocked_iff (hmac : Hmac) (w : World) (op : Operation) (w' : World)
    (hu : Unlocked w) (hs : step hmac w op = some w') : Unlocked w' ↔ KeepsUnlock w op := by
  obtain ⟨hp,hs⟩ := guarded_some.mp hs
  cases op with
  | timePasses clock =>
    simp only [World.step] at hs
    split_ifs at hs
    cases hs
    exact iff_of_true hu trivial
  | addCode codeStr =>
    cases hs
    exact iff_of_true (addCode_unlocked hmac w.manager w.clock codeStr hu) trivial
  | wallclockTimeChanged delta =>
    cases hs
    exact jump_unlocked_iff w.manager w.clock delta hu
  | clearCode => exact absurd hp id
  | save =>
    cases hs
    exact iff_of_true hu trivial
  | powerCycle clock files =>
    obtain ⟨m,hm,rfl⟩ := Option.map_eq_some_iff.mp hs
    exact restart_unlocked_iff w.clock clock w.manager m files hu hp.1 hp.2.1 hp.2.2 hm

/-- After an infinite code was accepted, the expiry time stays at the end of
time throughout a run if and only if every step of the run keeps it there. -/
theorem stays_unlocked_iff (hmac : Hmac) (w unlocked t : World) (codeStr : List UInt8)
    (used : UsedCode) (h : acceptedCode hmac w.manager w.clock codeStr = some used)
    (hp : used.period = .infinite) (hu : step hmac w (.addCode codeStr) = some unlocked)
    (ops : List Operation) (hr : run (step hmac) ops unlocked = some t) :
    Stays (step hmac) Unlocked ops unlocked ↔ Along (step hmac) KeepsUnlock ops unlocked := by
  have hstart : Unlocked unlocked := by
    cases (guarded_some.mp hu).2
    exact infinite_unlocks hmac w.manager w.clock codeStr used h hp
  exact stays_iff_along (step_unlocked_iff hmac) hstart hr

instance (w : World) : Decidable (Unlocked w) := inferInstanceAs (Decidable (_ = _))

instance (w : World) (op : Operation) : Decidable (KeepsUnlock w op) :=
  match op with
  | .wallclockTimeChanged _ => inferInstanceAs (Decidable (¬ _))
  | .powerCycle _ _ => inferInstanceAs (Decidable (_ ∨ _))
  | .timePasses _ => isTrue trivial
  | .addCode _ => isTrue trivial
  | .clearCode => isTrue trivial
  | .save => isTrue trivial

def infiniteCode : List UInt8 := [54, 53, 48, 49, 49, 55, 49, 50]

def started : World := ⟨freshManager, ⟨100, 5000, true⟩⟩

def unlockedFiles : Directory :=
  directoryOf ⟨5000, maxWord-100, gArraySort [⟨0, .infinite⟩]⟩ (List.replicate 64 0)

def unlockedWorld : World :=
  ⟨(addCode zeroHmac started.manager started.clock infiniteCode).2.1, started.clock⟩

/-- The clock is put back, and the machine restarted a minute later with a boot
clock that has kept counting. -/
theorem stays_unlocked_example :
    ∃ t, run (step zeroHmac) [.wallclockTimeChanged (-3600),
        .powerCycle ⟨160, 5060, true⟩ unlockedFiles] unlockedWorld = some t ∧
      (Stays (step zeroHmac) Unlocked [.wallclockTimeChanged (-3600),
          .powerCycle ⟨160, 5060, true⟩ unlockedFiles] unlockedWorld ↔
        Along (step zeroHmac) KeepsUnlock [.wallclockTimeChanged (-3600),
          .powerCycle ⟨160, 5060, true⟩ unlockedFiles] unlockedWorld) := by
  have h : (run (step zeroHmac) [.wallclockTimeChanged (-3600),
      .powerCycle ⟨160, 5060, true⟩ unlockedFiles] unlockedWorld).isSome = true := by decide +kernel
  rcases Option.isSome_iff_exists.mp h with ⟨t,ht⟩
  exact ⟨t,ht,stays_unlocked_iff zeroHmac started unlockedWorld t infiniteCode ⟨0, .infinite⟩
    (by decide +kernel) rfl rfl _ ht⟩

/-- Saved when it is unlocked and started again a minute later at boot second
20, a manager is no longer at the end of time. -/
theorem unlock_lost_on_restart :
    ¬ ∀ (codeStr : List UInt8) (used : UsedCode) (ops : List Operation) (v t : World),
      acceptedCode zeroHmac started.manager started.clock codeStr = some used →
      used.period = .infinite → step zeroHmac started (.addCode codeStr) = some v →
      run (step zeroHmac) ops v = some t → Unlocked t := by
  intro h
  have hf : ((run (step zeroHmac) [.powerCycle ⟨20, 5060, true⟩ unlockedFiles] unlockedWorld).any
      (fun t => ¬ Unlocked t)) = true := by decide +kernel
  rcases (Option.any_eq_true _ _).mp hf with ⟨t,ht,hn⟩
  exact of_decide_eq_true hn (h infiniteCode ⟨0, .infinite⟩ _ unlockedWorld t (by decide +kernel)
    rfl rfl ht)

end EosPayg.PermanentUnlock
