import EosPayg.ExpiryLoad
import EosPayg.Startup

/-!
# Migrating an expiry time in the old format

The expiry time in the old format is set and then deleted, while a save writes
the two files that replace it. The three operations take effect in any order, and
power may be lost between any two of them. What is on disk gives the same credit
again as long as the clock time is written after the expiry seconds, and the old
file deleted after the clock time.
-/

set_option autoImplicit false

namespace EosPayg.LegacyMigration
open EosPayg.WordArithmetic EosPayg.ManagerState EosPayg.ManagerFiles EosPayg.SaveQueue
  EosPayg.LoadCallback EosPayg.GuardedRun EosPayg.RecordList EosPayg.Initialisation
  EosPayg.InitProgress EosPayg.InitFault EosPayg.InitOutcome EosPayg.ExpiryCallback
  EosPayg.ExpiryLoad
open EosPayg.MultiTask (gTaskHadError)
open EosPayg.Startup (loadNow saveNow)

structure Legacy (files : Directory) : Prop where
  clockTime : files .clockTime = none
  expirySeconds : files .expirySeconds = none
  expiryTime : ∃ bytes, files .expiryTime = some bytes ∧ bytes.length = 8

def legacyExpiry (clock : EpgClock) (files : Directory) : ℕ :=
  min maxWord.toNat (clock.time.toNat+(legacySpan clock (files .expiryTime)).toNat)

def legacyCredit (clock : EpgClock) (files : Directory) : ℕ :=
  legacyExpiry clock files-clock.time.toNat

/-- The expiry seconds are on disk, and will be taken for what they are. -/
def Durable (files : Directory) (clock : EpgClock) (disk : Directory) : Prop :=
  disk .expirySeconds ≠ none ∧ ¬ Bogus (legacyCredit clock files) ∧
    (clock.sourceNewSeconds = true ∨ legacyExpiry clock files = maxWord.toNat)

/-- Unless there is no credit, the clock time is written when the expiry seconds
are, and the old file deleted when the clock time is. -/
def InOrder (files : Directory) (s : System) : Operation → Prop
  | .takeEffect _ .clockTime =>
    legacyCredit s.clock files = 0 ∨ Durable files s.clock s.files
  | .delete i => ∀ d ∈ s.deletions[i]?, d.file = .expiryTime →
    legacyCredit s.clock files = 0 ∨ s.files .clockTime ≠ none
  | _ => True

def SameExpiry (clock : EpgClock) (disk files : Directory) : Prop :=
  ∀ again : EpgClock, again.time = clock.time → again.wallclockTime = clock.wallclockTime →
    expiryOf again disk = expiryOf again files

/-- What may be on disk while the migration goes on. -/
structure Migrates (files : Directory) (clock : EpgClock) (disk : Directory) : Prop where
  expirySeconds : disk .expirySeconds = none ∨ ∃ secs, disk .expirySeconds = some (wordBytes secs) ∧
    secs.toNat = worth clock (legacySpan clock (files .expiryTime))
  clockTime : disk .clockTime = none ∨ disk .clockTime = some (wordBytes clock.wallclockTime)
  expiryTime : disk .expiryTime = files .expiryTime ∨ disk .expiryTime = none

/-- The credit can be had from what is on disk. -/
def Safe (files : Directory) (clock : EpgClock) (disk : Directory) : Prop :=
  legacyCredit clock files = 0 ∨ (disk .clockTime = none ∧ disk .expiryTime ≠ none) ∨
    (disk .clockTime ≠ none ∧ Durable files clock disk)

theorem expiryAfter_eq_iff (clock : EpgClock) (x y : UInt64) :
    (∀ again : EpgClock, again.time = clock.time → again.wallclockTime = clock.wallclockTime →
        expiryAfter again again.time x = expiryAfter again again.time y) ↔
      min maxWord.toNat (clock.time.toNat+x.toNat) =
        min maxWord.toNat (clock.time.toNat+y.toNat) := by
  constructor
  · intro h
    have heq := h ⟨clock.time, clock.wallclockTime, true⟩ rfl rfl
    rw [word_ext_iff,expiryAfter_toNat,expiryAfter_toNat,if_pos (Or.inl rfl),
      if_pos (Or.inl rfl)] at heq
    exact heq
  · intro h again ht _
    rw [word_ext_iff,expiryAfter_toNat,expiryAfter_toNat,ht,h]
    have hiff : maxWord.toNat ≤ clock.time.toNat+x.toNat ↔
        maxWord.toNat ≤ clock.time.toNat+y.toNat := by omega
    simp only [hiff]

theorem creditSpan_congr {clock again : EpgClock} (files : Directory)
    (h : again.wallclockTime = clock.wallclockTime) :
    creditSpan again files = creditSpan clock files := by
  unfold creditSpan legacySpan secondsSpan
  rw [h]

theorem sameExpiry_iff {clock : EpgClock} {disk files : Directory} {x y : UInt64}
    (hx : creditSpan clock disk = some x) (hy : creditSpan clock files = some y) :
    SameExpiry clock disk files ↔ min maxWord.toNat (clock.time.toNat+x.toNat) =
      min maxWord.toNat (clock.time.toNat+y.toNat) := by
  rw [← expiryAfter_eq_iff]
  unfold SameExpiry expiryOf
  refine forall_congr' (fun again => forall_congr' (fun _ => forall_congr' (fun hw => ?_)))
  rw [creditSpan_congr disk hw,creditSpan_congr files hw,hx,hy]
  rfl

theorem worth_legacy (clock : EpgClock) (files : Directory) :
    worth clock (legacySpan clock (files .expiryTime)) =
      if clock.sourceNewSeconds = true ∨ legacyExpiry clock files = maxWord.toNat then
        legacyCredit clock files else 0 := by
  have hend : maxWord.toNat ≤ clock.time.toNat+(legacySpan clock (files .expiryTime)).toNat ↔
      legacyExpiry clock files = maxWord.toNat := min_eq_left_iff.symm
  unfold worth
  rw [expiryAfter_toNat]
  simp only [hend]
  by_cases h : clock.sourceNewSeconds = true ∨ legacyExpiry clock files = maxWord.toNat
  · rw [if_pos h,if_pos h]
    rfl
  · rw [if_neg h,if_neg h,Nat.sub_self]

theorem legacy_span {files : Directory} (hl : Legacy files) (clock : EpgClock) :
    creditSpan clock files = some (legacySpan clock (files .expiryTime)) := if_pos hl.clockTime

theorem zero_iff (clock : EpgClock) (files : Directory) :
    min maxWord.toNat (clock.time.toNat+(0:UInt64).toNat) = legacyExpiry clock files ↔
      legacyCredit clock files = 0 := by
  have hb := word_lt clock.time
  unfold legacyCredit legacyExpiry
  rw [UInt64.toNat_zero,maxWord_toNat]
  omega

theorem reloaded_now (w x : UInt64) : (creditOnLoad w x w).toNat =
    if Bogus x.toNat then typicalPaymentSecs.toNat else x.toNat := by
  rw [creditOnLoad_toNat,creditLeft,Nat.sub_self,Nat.sub_zero]
  by_cases h : Bogus x.toNat
  · rw [if_pos ⟨le_rfl,h⟩,if_pos h]
  · rw [if_neg (fun hh => h hh.2),if_neg h]

theorem saved_iff (clock : EpgClock) (files : Directory) (secs : UInt64)
    (hsecs : secs.toNat = worth clock (legacySpan clock (files .expiryTime))) :
    min maxWord.toNat (clock.time.toNat+
        (creditOnLoad clock.wallclockTime secs clock.wallclockTime).toNat) =
      legacyExpiry clock files ↔ legacyCredit clock files = 0 ∨
        (¬ Bogus (legacyCredit clock files) ∧ (clock.sourceNewSeconds = true ∨
          legacyExpiry clock files = maxWord.toNat)) := by
  have hb := word_lt clock.time
  have hlower : bogusCreditLowerLimitSecs.toNat = 157680000 := rfl
  have hpay : typicalPaymentSecs.toNat = 2678400 := rfl
  have hmax := maxWord_toNat
  have hexp : legacyExpiry clock files ≤ maxWord.toNat := min_le_left _ _
  have hge : clock.time.toNat ≤ legacyExpiry clock files := by
    unfold legacyExpiry
    omega
  have hcredit : legacyCredit clock files = legacyExpiry clock files-clock.time.toNat := rfl
  rw [reloaded_now,hsecs,worth_legacy]
  by_cases h : clock.sourceNewSeconds = true ∨ legacyExpiry clock files = maxWord.toNat
  · rw [if_pos h]
    by_cases hbogus : Bogus (legacyCredit clock files)
    · rw [if_pos hbogus]
      have hlow := hbogus.1
      simp only [hbogus,not_true_eq_false,false_and,or_false]
      omega
    · rw [if_neg hbogus]
      simp only [hbogus,not_false_eq_true,h,and_self,or_true,iff_true]
      omega
  · have hzero : ¬ Bogus 0 := fun hh => Nat.not_lt_zero _ hh.1
    rw [if_neg h,if_neg hzero]
    simp only [h,and_false,or_false]
    omega

/-- What is on disk gives the expiry time of the old file exactly when it is
safe. -/
theorem safe_iff {files : Directory} {clock : EpgClock} {disk : Directory} (hl : Legacy files)
    (hd : Migrates files clock disk) : SameExpiry clock disk files ↔ Safe files clock disk := by
  have hold : files .expiryTime ≠ none := by
    obtain ⟨bytes,hb,-⟩ := hl.expiryTime
    rw [hb]
    exact nofun
  rcases hd.clockTime with hc | hc
  · have hspan : creditSpan clock disk = some (legacySpan clock (disk .expiryTime)) := if_pos hc
    have hsame := sameExpiry_iff hspan (legacy_span hl clock)
    rcases hd.expiryTime with hx | hx
    · rw [hsame,hx]
      exact iff_of_true rfl (Or.inr (Or.inl ⟨hc,hx ▸ hold⟩))
    · rw [hx] at hsame
      rw [hsame]
      refine (zero_iff clock files).trans ⟨Or.inl,?_⟩
      rintro (h | ⟨-,h⟩ | ⟨h,-⟩)
      · exact h
      · exact absurd hx h
      · exact absurd hc h
  · have hne : disk .clockTime ≠ none := by rw [hc]; exact nofun
    have hspan : creditSpan clock disk =
        secondsSpan clock (some clock.wallclockTime) (disk .expirySeconds) := by
      rw [creditSpan,if_neg hne,savedWord_wordBytes hc]
    rcases hd.expirySeconds with hx | ⟨secs,hx,hsecs⟩
    · rw [hx] at hspan
      have hsame := sameExpiry_iff (x := 0) hspan (legacy_span hl clock)
      rw [hsame]
      refine (zero_iff clock files).trans ⟨Or.inl,?_⟩
      rintro (h | ⟨h,-⟩ | ⟨-,h,-⟩)
      · exact h
      · exact absurd h hne
      · exact absurd hx h
    · have hdur : disk .expirySeconds ≠ none := by rw [hx]; exact nofun
      rw [secondsSpan,savedWord_wordBytes hx] at hspan
      rw [sameExpiry_iff hspan (legacy_span hl clock)]
      refine (saved_iff clock files secs hsecs).trans (or_congr_right ⟨?_,?_⟩)
      · rintro ⟨hb,hs⟩
        exact Or.inr ⟨hne,hdur,hb,hs⟩
      · rintro (⟨h,-⟩ | ⟨-,-,hb,hs⟩)
        · exact absurd h hne
        · exact ⟨hb,hs⟩

/-- The migration of a directory at one reading of the clocks: nothing has
happened to its files until the old one is loaded, and what is started from then
on writes and deletes nothing else. -/
structure Migrating (files : Directory) (clock : EpgClock) (s : System) : Prop where
  steady : s.clock = clock
  stage : (Undecided files .clockTime s ∧ s.manager.lastSaveTimeSecs = none) ∨
    Undecided files .expiryTime s ∨ undecided s = 0
  saves : ∀ sv ∈ s.saves, sv.saved.clockTime = clock.wallclockTime ∧
    sv.saved.expirySeconds.toNat = worth clock (legacySpan clock (files .expiryTime))
  deletions : ∀ d ∈ s.deletions, d.file = .usedCodes ∨ d.file = .expiryTime
  disk : Migrates files clock s.files

theorem migrates_congr {files : Directory} {clock : EpgClock} {disk disk' : Directory}
    (h : Migrates files clock disk) (hf : ∀ f, StateFile.ofExpiry f = true → disk' f = disk f) :
    Migrates files clock disk' := by
  constructor
  · rw [hf .expirySeconds rfl]
    exact h.expirySeconds
  · rw [hf .clockTime rfl]
    exact h.clockTime
  · rw [hf .expiryTime rfl]
    exact h.expiryTime

theorem safe_congr (files : Directory) (clock : EpgClock) {disk disk' : Directory}
    (hf : ∀ f, StateFile.ofExpiry f = true → disk' f = disk f) :
    Safe files clock disk' ↔ Safe files clock disk := by
  unfold Safe Durable
  rw [hf .clockTime rfl,hf .expirySeconds rfl,hf .expiryTime rfl]

theorem legacy_migrates {files : Directory} (hl : Legacy files) (clock : EpgClock) :
    Migrates files clock files := ⟨Or.inl hl.expirySeconds,Or.inl hl.clockTime,Or.inl rfl⟩

theorem legacy_safe {files : Directory} (hl : Legacy files) (clock : EpgClock) :
    Safe files clock files := by
  obtain ⟨bytes,hb,-⟩ := hl.expiryTime
  exact Or.inr (Or.inl ⟨hl.clockTime,by rw [hb]; exact nofun⟩)

theorem deleted_migrates {files : Directory} {clock : EpgClock} {disk disk' : Directory}
    (h : Migrates files clock disk) (hnone : disk' .expiryTime = none)
    (hrest : ∀ f, f ≠ .expiryTime → disk' f = disk f) : Migrates files clock disk' := by
  constructor
  · rw [hrest .expirySeconds (by decide)]
    exact h.expirySeconds
  · rw [hrest .clockTime (by decide)]
    exact h.clockTime
  · exact Or.inr hnone

theorem timed_migrates {files : Directory} {clock : EpgClock} {disk disk' : Directory}
    (h : Migrates files clock disk)
    (hnew : disk' .clockTime = some (wordBytes clock.wallclockTime))
    (hrest : ∀ f, f ≠ .clockTime → disk' f = disk f) : Migrates files clock disk' := by
  constructor
  · rw [hrest .expirySeconds (by decide)]
    exact h.expirySeconds
  · exact Or.inr hnew
  · rw [hrest .expiryTime (by decide)]
    exact h.expiryTime

theorem counted_migrates {files : Directory} {clock : EpgClock} {disk disk' : Directory}
    {secs : UInt64} (h : Migrates files clock disk)
    (hnew : disk' .expirySeconds = some (wordBytes secs))
    (hsecs : secs.toNat = worth clock (legacySpan clock (files .expiryTime)))
    (hrest : ∀ f, f ≠ .expirySeconds → disk' f = disk f) : Migrates files clock disk' := by
  constructor
  · exact Or.inr ⟨secs,hnew,hsecs⟩
  · rw [hrest .clockTime (by decide)]
    exact h.clockTime
  · rw [hrest .expiryTime (by decide)]
    exact h.expiryTime

theorem deleted_safe {files : Directory} {clock : EpgClock} {disk disk' : Directory}
    (hnone : disk' .expiryTime = none) (hrest : ∀ f, f ≠ .expiryTime → disk' f = disk f)
    (h : Safe files clock disk) :
    Safe files clock disk' ↔ legacyCredit clock files = 0 ∨ disk .clockTime ≠ none := by
  have hc := hrest .clockTime (by decide)
  have hx := hrest .expirySeconds (by decide)
  constructor
  · rintro (hz | ⟨-,hn⟩ | ⟨hn,-⟩)
    · exact Or.inl hz
    · exact absurd hnone hn
    · exact Or.inr (hc ▸ hn)
  · rintro (hz | hn)
    · exact Or.inl hz
    · rcases h with hz | ⟨hno,-⟩ | ⟨-,hdur⟩
      · exact Or.inl hz
      · exact absurd hno hn
      · refine Or.inr (Or.inr ⟨by rw [hc]; exact hn,?_⟩)
        unfold Durable
        rw [hx]
        exact hdur

theorem timed_safe {files : Directory} {clock : EpgClock} {disk disk' : Directory}
    (hsome : disk' .clockTime ≠ none) (hrest : ∀ f, f ≠ .clockTime → disk' f = disk f) :
    Safe files clock disk' ↔ legacyCredit clock files = 0 ∨ Durable files clock disk := by
  have hdur : Durable files clock disk' ↔ Durable files clock disk := by
    unfold Durable
    rw [hrest .expirySeconds (by decide)]
  unfold Safe
  rw [hdur]
  exact or_congr_right ⟨fun h => h.elim (fun hh => absurd hh.1 hsome) And.right,
    fun h => Or.inr ⟨hsome,h⟩⟩

theorem counted_safe {files : Directory} {clock : EpgClock} {disk disk' : Directory}
    (hsome : disk' .expirySeconds ≠ none) (hrest : ∀ f, f ≠ .expirySeconds → disk' f = disk f)
    (h : Safe files clock disk) : Safe files clock disk' := by
  have hc := hrest .clockTime (by decide)
  have hx := hrest .expiryTime (by decide)
  rcases h with hz | ⟨hno,hold⟩ | ⟨hn,-,hb,hs⟩
  · exact Or.inl hz
  · exact Or.inr (Or.inl ⟨hc.trans hno,by rw [hx]; exact hold⟩)
  · exact Or.inr (Or.inr ⟨by rw [hc]; exact hn,hsome,hb,hs⟩)

/-- What a step does to the disk, and when the credit survives it. -/
theorem step_disk {files : Directory} {clock : EpgClock} {s s' : System} {op : Operation}
    (h : Migrating files clock s) (hs : step s op = some s') :
    Migrates files clock s'.files ∧
      (Safe files clock s.files → (Safe files clock s'.files ↔ InOrder files s op)) := by
  have hsame (hf : s'.files = s.files) (ho : InOrder files s op) : Migrates files clock s'.files ∧
      (Safe files clock s.files → (Safe files clock s'.files ↔ InOrder files s op)) := by
    rw [hf]
    exact ⟨h.disk,fun hsafe => iff_of_true hsafe ho⟩
  cases step_cases s s' op hs with
  | loadCb i l result hi hl => exact hsame (loadCb_lists s i l result _ rfl).2.2.2.1 trivial
  | deleteCb i d error hi hd =>
    obtain ⟨t,ht⟩ := deleteCb_lists s i d error
    exact hsame (by rw [ht]; rfl) trivial
  | saveCb i sv result hi hresult hr => exact hsame (performAll_extends _ _).files trivial
  | delete i d hi hf =>
    obtain ⟨-,hnone,hrest⟩ := run_succeeded (.delete d.file) s.files
    rcases h.deletions d (List.mem_of_getElem? hi) with hfile | hfile
    · have hkept (f : StateFile) (hx : StateFile.ofExpiry f = true) :
          (FileOp.run (.delete d.file) s.files).2 f = s.files f := by
        apply hrest
        rintro rfl
        rw [show FileOp.file (.delete d.file) = d.file from rfl,hfile] at hx
        cases hx
      refine ⟨migrates_congr h.disk hkept,fun hsafe => ?_⟩
      rw [safe_congr files clock hkept]
      refine iff_of_true hsafe (fun o ho hold => ?_)
      rw [hi] at ho
      cases ho
      rw [hfile] at hold
      cases hold
    · show Migrates files clock (FileOp.run (.delete d.file) s.files).2 ∧
        (Safe files clock s.files → (Safe files clock (FileOp.run (.delete d.file) s.files).2 ↔
          InOrder files s (.delete i)))
      rw [hfile] at hnone hrest ⊢
      refine ⟨deleted_migrates h.disk hnone hrest,fun hsafe => ?_⟩
      rw [deleted_safe hnone hrest hsafe]
      show _ ↔ ∀ o ∈ s.deletions[i]?, o.file = .expiryTime → _
      rw [hi,h.steady]
      simp [hfile]
  | takeEffect i f sv sv' files' hi he =>
    obtain ⟨-,rfl,-⟩ := takeEffect_some sv sv' f s.files files' he
    obtain ⟨hw,hx⟩ := h.saves sv (List.mem_of_getElem? hi)
    obtain ⟨-,hnew,hrest⟩ := run_succeeded (saveOp sv.saved f) s.files
    show Migrates files clock (FileOp.run (saveOp sv.saved f) s.files).2 ∧
      (Safe files clock s.files → (Safe files clock (FileOp.run (saveOp sv.saved f) s.files).2 ↔
        InOrder files s (.takeEffect i f)))
    generalize (FileOp.run (saveOp sv.saved f) s.files).2 = disk at *
    rw [saveOp_file] at hnew hrest
    cases f with
    | clockTime =>
      have hnew' : disk .clockTime = some (wordBytes clock.wallclockTime) := by
        rw [← hw]
        exact hnew
      refine ⟨timed_migrates h.disk hnew' hrest,fun _ => ?_⟩
      rw [timed_safe (by rw [hnew']; exact nofun) hrest,← h.steady]
      rfl
    | expirySeconds =>
      have hnew' : disk .expirySeconds = some (wordBytes sv.saved.expirySeconds) := hnew
      refine ⟨counted_migrates h.disk hnew' hx hrest,fun hsafe => ?_⟩
      exact iff_of_true (counted_safe (by rw [hnew']; exact nofun) hrest hsafe) trivial
    | usedCodes =>
      have hkept (f : StateFile) (hx : StateFile.ofExpiry f = true) : disk f = s.files f := by
        apply hrest
        rintro rfl
        cases hx
      refine ⟨migrates_congr h.disk hkept,fun hsafe => ?_⟩
      exact iff_of_true ((safe_congr files clock hkept).mpr hsafe) trivial
  | _ => exact hsame rfl trivial

theorem fileLoadCb_sees (self : EpgManager) (clock : EpgClock) (hadError : Bool)
    (file : StateFile) (files : Directory) (result : LoadResult)
    (hr : result = loadContents files file ∨
      ∃ error, error ≠ .notFound ∧ result = .failed error) :
    (∃ e, fileLoadCb self clock hadError file result = (self,[.taskReturnError e])) ∨
      fileLoadCb self clock hadError file result = updateFromFile self clock file (files file) := by
  cases hadError with
  | true => exact Or.inl ⟨.failed,rfl⟩
  | false =>
    rcases hr with rfl | ⟨error,he,rfl⟩
    · exact Or.inr (fileLoadCb_seen self clock file files)
    · exact Or.inl ⟨error,by simp [fileLoadCb,he]⟩

theorem step_started {s s' : System} {op : Operation} (hs : step s op = some s')
    (hop : ∀ i, op ≠ .loadCb i) :
    (∀ sv ∈ s'.saves, ∃ o ∈ s.saves, sv.saved = o.saved) ∧
      ∀ d ∈ s'.deletions, ∃ o ∈ s.deletions, d.file = o.file := by
  have hsame : (∀ sv ∈ s.saves, ∃ o ∈ s.saves, sv.saved = o.saved) ∧
      ∀ d ∈ s.deletions, ∃ o ∈ s.deletions, d.file = o.file :=
    ⟨fun sv hm => ⟨sv,hm,rfl⟩,fun d hm => ⟨d,hm,rfl⟩⟩
  have hset (i : ℕ) (sv sv' : Save) (hi : s.saves[i]? = some sv) (hsaved : sv'.saved = sv.saved) :
      ∀ o ∈ s.saves.set i sv', ∃ o' ∈ s.saves, o.saved = o'.saved :=
    forall_set s.saves i sv' hsame.1 ⟨sv,List.mem_of_getElem? hi,hsaved⟩
  have hdel (i : ℕ) (d : Deletion) (status : Status) (hi : s.deletions[i]? = some d) :
      ∀ o ∈ s.deletions.set i { d with status := status }, ∃ o' ∈ s.deletions,
        o.file = o'.file :=
    forall_set s.deletions i _ hsame.2 ⟨d,List.mem_of_getElem? hi,rfl⟩
  cases step_cases s s' op hs with
  | loadCb i l result hi hl => exact absurd rfl (hop i)
  | delete i d hi hf => exact ⟨hsame.1,hdel i d _ hi⟩
  | deleteFails i error d hi hf => exact ⟨hsame.1,hdel i d _ hi⟩
  | deleteCb i d error hi hd =>
    obtain ⟨t,ht⟩ := deleteCb_lists s i d error
    rw [ht]
    exact ⟨hsame.1,hdel i d _ hi⟩
  | takeEffect i f sv sv' files' hi he =>
    obtain ⟨-,-,rfl⟩ := takeEffect_some sv sv' f s.files files' he
    exact ⟨hset i sv _ hi rfl,hsame.2⟩
  | fail i f error sv sv' hi he =>
    obtain ⟨-,-,rfl⟩ := fail_some sv sv' f error he
    exact ⟨hset i sv _ hi rfl,hsame.2⟩
  | opCb i f sv sv' hi he =>
    obtain ⟨error,-,rfl⟩ := opCb_some sv sv' f he
    exact ⟨hset i sv _ hi rfl,hsame.2⟩
  | saveCb i sv result hi hresult hr =>
    obtain ⟨-,hd,hsaves⟩ := saveCb_lists s i sv result
    rw [hd,hsaves]
    exact ⟨hset i sv _ hi rfl,hsame.2⟩
  | _ => exact hsame

theorem undecided_migrating {files : Directory} {clock : EpgClock} {file : StateFile} {s : System}
    (hu : Undecided files file s) (hsteady : s.clock = clock)
    (hdisk : Migrates files clock s.files)
    (hfile : (file = .clockTime ∧ s.manager.lastSaveTimeSecs = none) ∨ file = .expiryTime) :
    Migrating files clock s := by
  refine ⟨hsteady,?_,?_,fun d hd => Or.inl (hu.deletions d hd),hdisk⟩
  · rcases hfile with ⟨rfl,ht⟩ | rfl
    · exact Or.inl ⟨hu,ht⟩
    · exact Or.inr (Or.inl hu)
  · rw [hu.saves]
    exact nofun

theorem settled_migrating {files : Directory} {clock : EpgClock} {file : StateFile} {s : System}
    (h : Migrating files clock s) (hu : Undecided files file s) (i : ℕ) (l : Load)
    (result : LoadResult) (hi : s.loads[i]? = some l) (hd : Load.decides l = true) (out : Outcome)
    (hout : fileLoadCb s.manager s.clock (gTaskHadError s.task) l.file result = out)
    (hl : out.2.filterMap Effect.load = [])
    (hdel : ∀ d ∈ out.2.filterMap Effect.deletion, d.file = .expiryTime)
    (hsaves : ∀ sv ∈ out.2.filterMap (Effect.started clock),
      sv.saved.clockTime = clock.wallclockTime ∧
        sv.saved.expirySeconds.toNat = worth clock (legacySpan clock (files .expiryTime))) :
    Migrating files clock (loadCb s i l result) := by
  obtain ⟨-,hd',hs',hfiles,hc,-⟩ := loadCb_lists s i l result out hout
  refine ⟨hc.trans h.steady,Or.inr (Or.inr (settled_undecided hu i l result hi hd out hout hl)),
    ?_,?_,?_⟩
  · intro sv hm
    rw [hs',h.steady] at hm
    exact (List.mem_append.mp hm).elim (h.saves sv) (hsaves sv)
  · intro d hm
    rw [hd'] at hm
    exact (List.mem_append.mp hm).elim (h.deletions d) (fun hn => Or.inr (hdel d hn))
  · rw [hfiles]
    exact h.disk

theorem decides_migrating {files : Directory} {clock : EpgClock} {s : System} (hl : Legacy files)
    (h : Migrating files clock s) (i : ℕ) (l : Load) (result : LoadResult)
    (hi : s.loads[i]? = some l) (hr : l.status = .read result) (hd : Load.decides l = true) :
    Migrating files clock (loadCb s i l result) := by
  have hm := List.mem_of_getElem? hi
  have herror (file : StateFile) (hu : Undecided files file s) (e : GIOError)
      (hout : fileLoadCb s.manager s.clock (gTaskHadError s.task) l.file result =
        (s.manager,[.taskReturnError e])) : Migrating files clock (loadCb s i l result) :=
    settled_migrating h hu i l result hi hd _ hout rfl nofun nofun
  rcases h.stage with ⟨hu,ht⟩ | hu | hz
  · obtain ⟨hfile,hreads⟩ := hu.loads l hm hd
    rcases fileLoadCb_sees s.manager s.clock (gTaskHadError s.task) l.file files result
      (hreads result hr) with ⟨e,hout⟩ | hout
    · exact herror .clockTime hu e hout
    · have hformed : ¬ MalformedData (files .clockTime) .clockTime := by
        rw [hl.clockTime]
        exact nofun
      rw [hfile] at hout
      rw [clockTime_formed s.manager s.clock (files .clockTime) hformed ht
        hu.lastSaveExpirySecs,hl.clockTime,← hfile] at hout
      obtain ⟨hu',-⟩ := handed_undecided hu i l result hi hd _ _ (childFile_ofExpiry none) hout
      have hsame := loadCb_lists s i l result _ rfl
      exact undecided_migrating hu' (hsame.2.2.2.2.1.trans h.steady)
        (by rw [hsame.2.2.2.1]; exact h.disk) (Or.inr rfl)
  · obtain ⟨hfile,hreads⟩ := hu.loads l hm hd
    rcases fileLoadCb_sees s.manager s.clock (gTaskHadError s.task) l.file files result
      (hreads result hr) with ⟨e,hout⟩ | hout
    · exact herror .expiryTime hu e hout
    · obtain ⟨bytes,hb,h8⟩ := hl.expiryTime
      have hformed := eightBytes_formed hb h8 .expiryTime rfl
      have hset := expiryTime_formed s.manager s.clock (files .expiryTime) hformed
      rw [h.steady] at hset
      rw [hfile,h.steady] at hout
      exact settled_migrating h hu i l result hi hd _ (by rw [hfile,h.steady]; exact hout)
        hset.loads hset.deletions hset.saves
  · exact absurd hd (List.countP_eq_zero.mp hz l hm)

theorem step_stage {files : Directory} {clock : EpgClock} {s s' : System} {op : Operation}
    (h : Migrating files clock s) (hs : step s op = some s')
    (hno : ∀ i l, op = .loadCb i → s.loads[i]? = some l → Load.decides l = false) :
    (Undecided files .clockTime s' ∧ s'.manager.lastSaveTimeSecs = none) ∨
      Undecided files .expiryTime s' ∨ undecided s' = 0 := by
  have hstays (file : StateFile) (hu : Undecided files file s) : Undecided files file s' ∧
      s'.manager.lastSaveTimeSecs = s.manager.lastSaveTimeSecs := by
    rcases undecided_step hu hs with hu' | ⟨i,l,result,hop,hi,hd,-⟩
    · exact hu'
    · exact absurd (hd.symm.trans (hno i l hop hi)) (by decide)
  rcases h.stage with ⟨hu,ht⟩ | hu | hz
  · obtain ⟨hu',ht'⟩ := hstays .clockTime hu
    exact Or.inl ⟨hu',ht'.trans ht⟩
  · exact Or.inr (Or.inl (hstays .expiryTime hu).1)
  · exact Or.inr (Or.inr (decided_step hz hs).1)

theorem step_migrating {files : Directory} {clock : EpgClock} {s s' : System} {op : Operation}
    (hl : Legacy files) (h : Migrating files clock s) (ha : Operation.acts op = true)
    (hs : step s op = some s') : Migrating files clock s' := by
  have hsteady := (step_clock hs ha).trans h.steady
  have hdisk := (step_disk h hs).1
  by_cases hop : ∀ i, op ≠ .loadCb i
  · obtain ⟨hsaves,hdels⟩ := step_started hs hop
    refine ⟨hsteady,step_stage h hs (fun i _ hi => absurd hi (hop i)),?_,?_,hdisk⟩
    · intro sv hm
      obtain ⟨o,ho,hsv⟩ := hsaves sv hm
      rw [hsv]
      exact h.saves o ho
    · intro d hm
      obtain ⟨o,ho,hf⟩ := hdels d hm
      rw [hf]
      exact h.deletions o ho
  · simp only [not_forall,not_not] at hop
    obtain ⟨i,rfl⟩ := hop
    cases step_cases s s' _ hs with
    | loadCb _ l result hi hr =>
      cases hd : Load.decides l with
      | true => exact decides_migrating hl h i l result hi hr hd
      | false =>
        have hf := (uncalled_decides (read_uncalled hr)).symm.trans hd
        obtain ⟨-,hsaves,hdels,-⟩ := loadCb_aside s i l result hf
        refine ⟨hsteady,step_stage h hs ?_,?_,?_,hdisk⟩
        · intro j o hj ho
          cases hj
          rw [hi] at ho
          cases ho
          exact hd
        · rw [hsaves]
          exact h.saves
        · intro d hm
          exact (hdels d hm).elim (h.deletions d) Or.inl

theorem initAsync_migrating {files : Directory} (hl : Legacy files) (enabled : Bool)
    (clock : EpgClock) : Migrating files clock (initAsync (epgManagerInit enabled) clock files) :=
  undecided_migrating (initAsync_undecided _ clock files rfl rfl) rfl (legacy_migrates hl clock)
    (Or.inl ⟨rfl,rfl⟩)

/-- Power may be lost in a state: any manager initialised again from its disk at
the same readings of the clocks has the credit of the old file. -/
def Recoverable (files : Directory) (clock : EpgClock) (s : System) : Prop :=
  ∀ again : EpgClock, again.time = clock.time → again.wallclockTime = clock.wallclockTime →
    ∀ (enabled : Bool) (ops : List Operation) (s' : System),
      (∀ op ∈ ops, Operation.acts op = true) →
      run step ops (initAsync (epgManagerInit enabled) again s.files) = some s' →
      Initialised s' → remaining s'.manager again.time =
        worth again (legacySpan again (files .expiryTime))

theorem recoverable {files : Directory} {clock : EpgClock} {s : System} (hl : Legacy files)
    (h : SameExpiry clock s.files files) : Recoverable files clock s := by
  intro again ht hw enabled ops s' ha hr hd
  have hx := initialised_expiry enabled again s.files ops s' ha hr hd
  have hold : expiryOf again files =
      expiryAfter again again.time (legacySpan again (files .expiryTime)) := by
    rw [expiryOf,legacy_span hl again]
    rfl
  unfold remaining worth
  rw [hx,h again ht hw,hold]

theorem migrates_formed {files : Directory} {clock : EpgClock} {disk : Directory}
    (hl : Legacy files) (h : Migrates files clock disk) (file : StateFile)
    (hf : StateFile.ofExpiry file = true) : ¬ MalformedData (disk file) file := by
  cases file with
  | clockTime =>
    rcases h.clockTime with hc | hc
    · rw [hc]
      exact nofun
    · exact eightBytes_formed hc (wordBytes_length _) _ hf
  | expirySeconds =>
    rcases h.expirySeconds with hx | ⟨secs,hx,-⟩
    · rw [hx]
      exact nofun
    · exact eightBytes_formed hx (wordBytes_length _) _ hf
  | expiryTime =>
    obtain ⟨bytes,hb,h8⟩ := hl.expiryTime
    rcases h.expiryTime with hx | hx
    · exact eightBytes_formed (hx.trans hb) h8 _ hf
    · rw [hx]
      exact nofun
  | _ => cases hf

/-- A migration in which every step is in order can lose its power anywhere, and
the files give back the expiry time at every moment of it exactly then. In any
order they stay well formed. -/
theorem migration_keeps_credit (enabled : Bool) (clock : EpgClock) (files : Directory)
    (hl : Legacy files) (ops : List Operation) (s : System)
    (ha : ∀ op ∈ ops, Operation.acts op = true)
    (hr : run step ops (initAsync (epgManagerInit enabled) clock files) = some s) :
    (Along step (InOrder files) ops (initAsync (epgManagerInit enabled) clock files) →
      Stays step (Recoverable files clock) ops
        (initAsync (epgManagerInit enabled) clock files)) ∧
    (Stays step (fun t => SameExpiry clock t.files files) ops
        (initAsync (epgManagerInit enabled) clock files) ↔
      Along step (InOrder files) ops (initAsync (epgManagerInit enabled) clock files)) ∧
    ∀ file, StateFile.ofExpiry file = true → ¬ MalformedData (s.files file) file := by
  have hacts : Along step (fun _ op => Operation.acts op = true) ops
      (initAsync (epgManagerInit enabled) clock files) := along_of_forall ha _
  have hinit := initAsync_migrating hl enabled clock
  have hsame (t : System) (h : Migrating files clock t) :
      SameExpiry clock t.files files ↔ Safe files clock t.files := safe_iff hl h.disk
  have hiff : Stays step (fun t => SameExpiry clock t.files files) ops
        (initAsync (epgManagerInit enabled) clock files) ↔
      Along step (InOrder files) ops (initAsync (epgManagerInit enabled) clock files) := by
    apply stays_iff_along_under (J := Migrating files clock)
      (fun t op t' h hact hs => step_migrating hl h hact hs) _ hinit hacts
      ((hsame _ hinit).mpr (legacy_safe hl clock)) hr
    intro t op t' h hact hi hs
    rw [hsame t' (step_migrating hl h hact hs)]
    exact (step_disk h hs).2 ((hsame t h).mp hi)
  have hend : Migrating files clock s :=
    run_invariant_along (fun _ _ _ h hact hs => step_migrating hl h hact hs) hinit hacts hr
  exact ⟨fun ho => stays_mono (fun t h => recoverable hl h) (hiff.mpr ho),hiff,
    migrates_formed hl hend.disk⟩

def legacyFiles : Directory
  | .expiryTime => some (wordBytes 91400)
  | .key => some (List.replicate 64 0)
  | _ => none

def legacyClock : EpgClock := ⟨20, 5000, true⟩

def migrationStarts : List Operation := loadNow 0 ++ loadNow 4

def orderlyMigration : List Operation :=
  migrationStarts ++ [.takeEffect 0 .expirySeconds, .takeEffect 0 .clockTime,
    .takeEffect 0 .usedCodes, .delete 0]

instance (files : Directory) (clock : EpgClock) (disk : Directory) :
    Decidable (Durable files clock disk) := inferInstanceAs (Decidable (_ ∧ _ ∧ _))

instance (files : Directory) (s : System) (op : Operation) : Decidable (InOrder files s op) :=
  match op with
  | .takeEffect _ .clockTime => inferInstanceAs (Decidable (_ ∨ _))
  | .takeEffect _ .expirySeconds => isTrue trivial
  | .takeEffect _ .usedCodes => isTrue trivial
  | .delete _ => inferInstanceAs (Decidable (∀ d ∈ _, _ → _ ∨ _))
  | .timePasses _ => isTrue trivial
  | .read _ => isTrue trivial
  | .readFails _ _ => isTrue trivial
  | .loadCb _ => isTrue trivial
  | .deleteFails _ _ => isTrue trivial
  | .deleteCb _ => isTrue trivial
  | .fail _ _ _ => isTrue trivial
  | .opCb _ _ => isTrue trivial
  | .saveCb _ => isTrue trivial

theorem legacyFiles_legacy : Legacy legacyFiles := ⟨rfl,rfl,_,rfl,wordBytes_length _⟩

theorem migration_keeps_credit_example :
    Stays step (Recoverable legacyFiles legacyClock) orderlyMigration
      (initAsync (epgManagerInit true) legacyClock legacyFiles) := by
  have h : (run step orderlyMigration
      (initAsync (epgManagerInit true) legacyClock legacyFiles)).isSome = true := by
    decide +kernel
  obtain ⟨s,hs⟩ := Option.isSome_iff_exists.mp h
  exact (migration_keeps_credit true legacyClock legacyFiles legacyFiles_legacy orderlyMigration s
    (by decide) hs).1 (by decide +kernel)

def emptyReload : List Operation :=
  loadNow 0 ++ loadNow 4 ++ saveNow ++ loadNow 1 ++ loadNow 2 ++ loadNow 3

/-- The old file is deleted, and power is lost before anything has been written. -/
theorem deleted_before_saved :
    ¬ ∀ (clock : EpgClock) (files : Directory) (ops : List Operation) (s : System),
      Legacy files → files .key ≠ none → (∀ op ∈ ops, Operation.acts op = true) →
      run step ops (initAsync (epgManagerInit true) clock files) = some s →
      Recoverable files clock s := by
  intro h
  have hrun : ((run step (migrationStarts ++ [.delete 0])
      (initAsync (epgManagerInit true) legacyClock legacyFiles)).bind (fun s =>
        (run step emptyReload (initAsync (epgManagerInit true) legacyClock s.files)))).any
      (fun s => s.task.returned = [.ok (.boolean true)] ∧
        remaining s.manager legacyClock.time = 0) = true := by decide +kernel
  obtain ⟨s',hs',hd⟩ := (Option.any_eq_true _ _).mp hrun
  obtain ⟨s,hs,hagain⟩ := Option.bind_eq_some_iff.mp hs'
  obtain ⟨hret,hzero⟩ := of_decide_eq_true hd
  have hsame := h legacyClock legacyFiles _ s legacyFiles_legacy (by decide) (by decide) hs
    legacyClock rfl rfl true emptyReload s' (by decide) hagain
    ⟨.boolean true,by rw [hret]; exact List.mem_singleton_self _⟩
  rw [hzero] at hsame
  exact absurd hsame (by decide +kernel)

end EosPayg.LegacyMigration
