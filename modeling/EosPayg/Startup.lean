import EosPayg.InitTask

/-!
# Starting up while a save is already under way

The save that a callback starts holds the used codes that are in memory by
then, and any of its operations may take effect while other loads are still to
read. When the used codes are loaded before the expiry time is set, neither
memory nor disk loses one of them.
-/

set_option autoImplicit false

namespace EosPayg.Startup
open EosPayg.ManagerState EosPayg.ManagerFiles EosPayg.SaveQueue EosPayg.LoadCallback
  EosPayg.GuardedRun EosPayg.RecordList EosPayg.Initialisation
open EosPayg.MultiTask (returnError)
open EosPayg.ExpiryTimer (fileSpan deducedSpan loadedBytes fileLoadCb_bytes)
open EosPayg.Shutdown (internalSaveStateCb internalSaveStateCb_kept)
open EosPayg.InitTask (fileLoadDeleteCb_cases reportEffects_forTask giveBack_spends
  reported_accounts deleteCb_accounts setLoad_counts setDeletion_counts setSave_counts
  initAsync_accounts)

/-- Unless there are no used codes, they are loaded before any callback sets
the expiry time to another one. -/
def UsedCodesFirst (original : List UsedCode) (s : System) : Operation → Prop
  | .loadCb i => original = [] ∨ usedCodesLoaded s = true ∨
      ∀ l ∈ s.loads[i]?, ∀ data ∈ l.bytes, SetsNoExpiry s.manager s.clock l.file data
  | _ => True

def Keeps (original : List UsedCode) (data : Option (List UInt8)) : Prop :=
  ∃ codes, usedCodesOfBytes (data.getD []) = some codes ∧ codes.Perm original

structure Contents (original : List UsedCode) (s : System) : Prop where
  disk : Keeps original (s.files .usedCodes)
  reads : ∀ l ∈ s.loads, l.file = .usedCodes → ∀ data ∈ l.bytes, Keeps original data
  saved : ∀ sv ∈ s.saves, sv.saved.usedCodes = gArraySort original
  deletions : ∀ d ∈ s.deletions, d.file ≠ .usedCodes
  loading : ∃ l ∈ s.loads, l.file = .usedCodes

structure Invariant (original : List UsedCode) (s : System) : Prop where
  accounts : Accounts s 0 0
  contents : Contents original s
  known : s.task.errorReturned = false → (original = [] ∨ usedCodesLoaded s = true) →
    s.manager.usedCodes = gArraySort original

theorem perform_contents {original : List UsedCode} {s : System} (h : Contents original s)
    (e : Effect) (hs : ∀ saved forTask, e = .save saved forTask →
      saved.usedCodes = gArraySort original) (hd : e ≠ .deleteFile .usedCodes) :
    Contents original (perform s e) := by
  rcases h with ⟨hdisk,hreads,hsaved,hdel,l,hl,hf⟩
  cases e with
  | loadContents file =>
    constructor
    · exact hdisk
    · intro o ho hof data hdata
      rcases List.mem_append.mp ho with ho | ho
      · exact hreads o ho hof data hdata
      · rw [List.mem_singleton.mp ho] at hdata
        cases hdata
    · exact hsaved
    · exact hdel
    · exact ⟨l,List.mem_append_left _ hl,hf⟩
  | deleteFile file =>
    constructor
    · exact hdisk
    · exact hreads
    · exact hsaved
    · intro d hm
      rcases List.mem_append.mp hm with hm | hm
      · exact hdel d hm
      · rw [List.mem_singleton.mp hm]
        exact fun hh => hd (congrArg _ hh)
    · exact ⟨l,hl,hf⟩
  | save saved forTask =>
    constructor
    · exact hdisk
    · exact hreads
    · intro sv hm
      rcases List.mem_append.mp hm with hm | hm
      · exact hsaved sv hm
      · rw [List.mem_singleton.mp hm]
        exact hs saved forTask rfl
    · exact hdel
    · exact ⟨l,hl,hf⟩
  | taskIncrement => exact ⟨hdisk,hreads,hsaved,hdel,l,hl,hf⟩
  | taskReturnBoolean => exact ⟨hdisk,hreads,hsaved,hdel,l,hl,hf⟩
  | taskReturnError error => exact ⟨hdisk,hreads,hsaved,hdel,l,hl,hf⟩
  | taskSetData error => exact ⟨hdisk,hreads,hsaved,hdel,l,hl,hf⟩
  | notify property seen => exact ⟨hdisk,hreads,hsaved,hdel,l,hl,hf⟩
  | expired seen => exact ⟨hdisk,hreads,hsaved,hdel,l,hl,hf⟩
  | sourceDestroy => exact ⟨hdisk,hreads,hsaved,hdel,l,hl,hf⟩
  | sourceAttach interval => exact ⟨hdisk,hreads,hsaved,hdel,l,hl,hf⟩

theorem performAll_contents {original : List UsedCode} (effects : List Effect) (s : System)
    (h : Contents original s) (hs : ∀ saved forTask, .save saved forTask ∈ effects →
      saved.usedCodes = gArraySort original) (hd : .deleteFile .usedCodes ∉ effects) :
    Contents original (performAll s effects) := by
  induction effects generalizing s with
  | nil => exact h
  | cons e es ih =>
    apply ih
    · apply perform_contents h e
      · rintro saved forTask rfl
        exact hs saved forTask List.mem_cons_self
      · rintro rfl
        exact hd List.mem_cons_self
    · exact fun saved forTask hm => hs saved forTask (List.mem_cons_of_mem e hm)
    · exact fun hm => hd (List.mem_cons_of_mem e hm)

/-- A callback that has its unit in hand and starts nothing bad keeps the
invariant. -/
theorem performAll_invariant {original : List UsedCode} {s : System} {left budget : ℕ}
    (effects : List Effect) (ha : Accounts s 1 budget) (hc : Contents original s)
    (hspend : run spend effects 1 = some left) (hcost : costs effects ≤ budget)
    (hs : ∀ saved forTask, .save saved forTask ∈ effects →
      saved.usedCodes = gArraySort original)
    (hd : .deleteFile .usedCodes ∉ effects)
    (hk : (performAll s effects).task.errorReturned = false →
      (original = [] ∨ usedCodesLoaded s = true) → s.manager.usedCodes = gArraySort original) :
    Invariant original (performAll s effects) := by
  have hx := performAll_extends effects s
  constructor
  · have := performAll_accounts effects s 1 left (weaken_accounts ha le_rfl hcost) hspend
    exact weaken_accounts this (Nat.zero_le _) le_rfl
  · exact performAll_contents effects s hc hs hd
  · intro he hl
    rw [hx.manager]
    apply hk he
    rwa [extends_usedCodesLoaded hx] at hl

theorem same_invariant {original : List UsedCode} {s s' : System} (h : Invariant original s)
    (ht : s'.task = s.task) (hm : s'.manager = s.manager) (ho : outstanding s' = outstanding s)
    (hw : weights s' = weights s) (hl : usedCodesLoaded s' = usedCodesLoaded s)
    (hc : Contents original s') : Invariant original s' := by
  constructor
  · exact same_accounts h.accounts ht ho hw
  · exact hc
  · rw [ht,hm,hl]
    exact h.known

theorem keeps_sorted {original codes : List UsedCode} (h : codes.Perm original) :
    gArraySort codes = gArraySort original := by
  apply UsedCodes.ext
  apply List.Perm.eq_of_pairwise' (gArraySort codes).sorted (gArraySort original).sorted
  exact (gArraySort_perm codes).trans (h.trans (gArraySort_perm original).symm)

theorem setLoad_loads {original : List UsedCode} {s : System} (h : Contents original s) (i : ℕ)
    (l : Load) (status : LoadStatus) (hi : s.loads[i]? = some l)
    (hr : l.file = .usedCodes → ∀ data ∈ Load.bytes ⟨l.file, status⟩, Keeps original data) :
    Contents original (setLoad s i l status) := by
  rcases h with ⟨hdisk,hreads,hsaved,hdel,o,ho,hof⟩
  constructor
  · exact hdisk
  · exact forall_set s.loads i _ hreads hr
  · exact hsaved
  · exact hdel
  · by_cases hlf : l.file = .usedCodes
    · have hlt : i < s.loads.length := (List.getElem?_eq_some_iff.mp hi).1
      exact ⟨{ l with status := status },List.mem_set hlt _,hlf⟩
    · rcases List.getElem?_of_mem ho with ⟨j,hj⟩
      have hij : i ≠ j := by
        rintro rfl
        rw [hi] at hj
        cases hj
        exact hlf hof
      use o
      constructor
      · apply List.mem_of_getElem?
        rw [setLoad,List.getElem?_set_ne hij]
        exact hj
      · exact hof

theorem readResult_invariant {original : List UsedCode} {s : System} (h : Invariant original s)
    (i : ℕ) (l : Load) (result : LoadResult) (hi : s.loads[i]? = some l)
    (hf : l.status = .inFlight)
    (hr : l.file = .usedCodes → ∀ data ∈ loadedBytes result, Keeps original data) :
    Invariant original (setLoad s i l (.read result)) := by
  have hc := inFlight_uncalled hf
  have hc' : Load.isCalled { l with status := .read result } = false := rfl
  obtain ⟨ho,hw⟩ := setLoad_counts s i l result hi hf
  apply same_invariant h
  · rfl
  · rfl
  · exact ho
  · exact hw
  · apply any_kept _ _ _ _ _ hi
    rw [hc,hc']
  · exact setLoad_loads h.contents i l _ hi hr

theorem called_contents {original : List UsedCode} {s : System} (h : Contents original s)
    (i : ℕ) (l : Load) (m : EpgManager) (hi : s.loads[i]? = some l) :
    Contents original { setLoad s i l .called with manager := m } := by
  rcases setLoad_loads h i l .called hi (fun _ _ hd => by cases hd) with ⟨h1,h2,h3,h4,h5⟩
  exact ⟨h1,h2,h3,h4,h5⟩

theorem errorCb_invariant {original : List UsedCode} {s : System} (h : Invariant original s)
    (i : ℕ) (l : Load) (error : GIOError) (hi : s.loads[i]? = some l) (hc : l.isCalled = false) :
    Invariant original (performAll { setLoad s i l .called with manager := s.manager }
      [.taskReturnError error]) := by
  have ha := called_accounts h.accounts i l s.manager hi hc
  have hpos : 0 < s.task.pending := (Nat.le_add_left 1 _).trans ha.owed
  have hspend : run spend [.taskReturnError error] 1 = some 0 := rfl
  apply performAll_invariant _ ha (called_contents h.contents i l s.manager hi) hspend
  · exact Nat.zero_le _
  · simp
  · simp
  · intro he
    have he' : (returnError s.task error).errorReturned = false := he
    rw [(returnError_task s.task error hpos h.accounts.live).2.2.1] at he'
    cases he'

theorem loadCb_invariant {original : List UsedCode} {s : System} (h : Invariant original s)
    (i : ℕ) (l : Load) (result : LoadResult) (hi : s.loads[i]? = some l)
    (hr : l.status = .read result) (ho : UsedCodesFirst original s (.loadCb i)) :
    Invariant original (loadCb s i l result) := by
  have hc := read_uncalled hr
  have hmem := List.mem_of_getElem? hi
  unfold loadCb acted loadActs
  dsimp only
  rw [hadError_eq h.accounts]
  cases he : s.task.errorReturned with
  | true => exact errorCb_invariant h i l .failed hi hc
  | false =>
    rcases fileLoadCb_bytes s.manager s.clock l.file result with ⟨e,-,hout⟩ | ⟨data,hb,hout⟩
    · rw [hout]
      exact errorCb_invariant h i l e hi hc
    · rw [hout]
      have hbytes : l.bytes = some data := by rw [Load.bytes,hr]; exact hb
      have hans := updateFromFile_answers s.manager s.clock l.file data
      have hkeeps : l.file = .usedCodes → Keeps original data :=
        fun hf => h.contents.reads l hmem hf data hbytes
      rcases hans.spends with ⟨left,hspend⟩
      apply performAll_invariant _ (called_accounts h.accounts i l _ hi hc)
        (called_contents h.contents i l _ hi) hspend hans.cost
      · intro saved forTask hsave
        rcases hans.saves saved forTask hsave with ⟨hu,hset⟩
        rw [hu]
        apply h.known he
        rcases ho with hnone | hloaded | hset'
        · exact Or.inl hnone
        · exact Or.inr hloaded
        · exact absurd (hset' l hi data hbytes) hset
      · intro hdel
        rcases hans.deletes hdel with ⟨hf,hbad⟩
        rcases hkeeps hf with ⟨codes,hcodes,-⟩
        rw [hbad] at hcodes
        cases hcodes
      · intro _ hl
        show (updateFromFile s.manager s.clock l.file data).1.usedCodes = _
        by_cases hf : l.file = .usedCodes
        · rcases hkeeps hf with ⟨codes,hcodes,hperm⟩
          rw [hans.loaded hf codes hcodes]
          exact keeps_sorted hperm
        · rw [called_loaded s i l _ hi hf] at hl
          rw [hans.kept hf]
          exact h.known he hl

theorem setDeletion_deletions {s : System} (h : ∀ d ∈ s.deletions, d.file ≠ .usedCodes) (i : ℕ)
    (d : Deletion) (status : Status) (hd : d ∈ s.deletions) :
    ∀ o ∈ (setDeletion s i d status).deletions, o.file ≠ .usedCodes :=
  forall_set s.deletions i { d with status := status } h (h d hd)

theorem deleted_invariant {original : List UsedCode} {s : System} (h : Invariant original s)
    (i : ℕ) (d : Deletion) (error : Option GIOError) (files' : Directory)
    (hi : s.deletions[i]? = some d) (hf : d.status = .inFlight)
    (hfiles : files' .usedCodes = s.files .usedCodes) :
    Invariant original { setDeletion s i d (.done error) with files := files' } := by
  have hc := h.contents
  apply same_invariant h
  · rfl
  · rfl
  · exact setDeletion_counts s i d error hi hf
  · rfl
  · rfl
  · constructor
    · show Keeps original (files' .usedCodes)
      rw [hfiles]
      exact hc.disk
    · exact hc.reads
    · exact hc.saved
    · exact setDeletion_deletions hc.deletions i d _ (List.mem_of_getElem? hi)
    · exact hc.loading

theorem giveBack_invariant {original : List UsedCode} {s : System} (e : Effect)
    (he : e = .taskReturnBoolean ∨ ∃ error, e = .taskReturnError error)
    (ha : Accounts s 1 0) (hc : Contents original s)
    (hk : s.task.errorReturned = false → (original = [] ∨ usedCodesLoaded s = true) →
      s.manager.usedCodes = gArraySort original) : Invariant original (performAll s [e]) := by
  obtain ⟨hspend,hcost⟩ := giveBack_spends he
  apply performAll_invariant _ ha hc hspend
  · exact hcost.le
  · rcases he with rfl | ⟨error,rfl⟩ <;> simp
  · rcases he with rfl | ⟨error,rfl⟩ <;> simp
  · intro herr
    exact hk ((performAll_extends [e] s).error herr)

theorem deleteCb_invariant {original : List UsedCode} {s : System} (h : Invariant original s)
    (i : ℕ) (d : Deletion) (error : Option GIOError) (hi : s.deletions[i]? = some d)
    (hf : d.status = .done error) : Invariant original (deleteCb s i d error) := by
  have hc := h.contents
  unfold deleteCb acted deleteActs
  dsimp only
  apply giveBack_invariant (fileLoadDeleteCb s.taskData error)
    (fileLoadDeleteCb_cases s.taskData error)
  · exact deleteCb_accounts h.accounts i d error hi hf
  · exact ⟨hc.disk,hc.reads,hc.saved,
      setDeletion_deletions hc.deletions i d _ (List.mem_of_getElem? hi),hc.loading⟩
  · exact h.known

theorem moved_invariant {original : List UsedCode} {s : System} (h : Invariant original s)
    (i : ℕ) (sv sv' : Save) (files' : Directory) (hi : s.saves[i]? = some sv)
    (hs : sv'.saved = sv.saved) (ht : sv'.forTask = sv.forTask)
    (hr : sv'.reported = sv.reported) (hd : Keeps original (files' .usedCodes)) :
    Invariant original { s with saves := s.saves.set i sv', files := files' } := by
  have hc := h.contents
  apply same_invariant h
  · rfl
  · rfl
  · exact setSave_counts s i sv sv' hi ht hr
  · rfl
  · rfl
  · constructor
    · exact hd
    · exact hc.reads
    · apply forall_set s.saves i sv' hc.saved
      rw [hs]
      exact hc.saved sv (List.mem_of_getElem? hi)
    · exact hc.deletions
    · exact hc.loading

theorem run_keeps {original : List UsedCode} {files : Directory} (saved : SavedState)
    (f : SaveFile) (hu : saved.usedCodes = gArraySort original)
    (hd : Keeps original (files .usedCodes)) :
    Keeps original ((FileOp.run (saveOp saved f) files).2 .usedCodes) := by
  have hrun := run_succeeded (saveOp saved f) files
  rw [saveOp_file] at hrun
  cases f with
  | usedCodes =>
    rw [show StateFile.usedCodes = SaveFile.file .usedCodes from rfl,hrun.2.1,
      saveOp_usedCodes,hu]
    exact ⟨_,usedCodesImage_decodes _,gArraySort_perm original⟩
  | clockTime =>
    rw [hrun.2.2 _ (by decide)]
    exact hd
  | expirySeconds =>
    rw [hrun.2.2 _ (by decide)]
    exact hd

theorem saveCb_invariant {original : List UsedCode} {s : System} (h : Invariant original s)
    (i : ℕ) (sv : Save) (result : Except GIOError Unit) (hi : s.saves[i]? = some sv)
    (hr : sv.reported = false) : Invariant original (saveCb s i sv result) := by
  have hc := h.contents
  have ha := reported_accounts h.accounts i sv (internalSaveStateCb s.manager result).1 hi hr
  have hcontents : Contents original
      (setReported s i sv (internalSaveStateCb s.manager result).1) := by
    constructor
    · exact hc.disk
    · exact hc.reads
    · exact forall_set s.saves i _ hc.saved (hc.saved sv (List.mem_of_getElem? hi))
    · exact hc.deletions
    · exact hc.loading
  have hknown : s.task.errorReturned = false → (original = [] ∨ usedCodesLoaded s = true) →
      (internalSaveStateCb s.manager result).1.usedCodes = gArraySort original := by
    rw [(internalSaveStateCb_kept s.manager result).2.1]
    exact h.known
  unfold saveCb acted saveActs
  dsimp only
  cases hft : sv.forTask with
  | false =>
    rw [hft] at ha
    exact ⟨ha,hcontents,hknown⟩
  | true =>
    rw [hft] at ha
    rcases reportEffects_forTask result with ⟨e,he,hkind⟩
    rw [he]
    exact giveBack_invariant e hkind ha hcontents hknown

theorem step_invariant {original : List UsedCode} (s : System) (op : Operation) (s' : System)
    (h : Invariant original s) (ho : UsedCodesFirst original s op)
    (hs : step s op = some s') : Invariant original s' := by
  cases step_cases s s' op hs with
  | timePasses clock =>
    have hc := h.contents
    exact same_invariant h rfl rfl rfl rfl rfl
      ⟨hc.disk,hc.reads,hc.saved,hc.deletions,hc.loading⟩
  | read i l hi hf =>
    apply readResult_invariant h i l _ hi hf
    intro hu data hdata
    rw [loadedBytes_loadContents,hu] at hdata
    cases hdata
    exact h.contents.disk
  | readFails i error l hi hf he =>
    apply readResult_invariant h i l _ hi hf
    intro _ data hdata
    rw [loadedBytes,if_neg he] at hdata
    cases hdata
  | loadCb i l result hi hl => exact loadCb_invariant h i l result hi hl ho
  | delete i d hi hf =>
    apply deleted_invariant h i d _ _ hi hf
    have hd := h.contents.deletions d (List.mem_of_getElem? hi)
    exact (run_succeeded (.delete d.file) s.files).2.2 _ (fun hh => hd hh.symm)
  | deleteFails i error d hi hf => exact deleted_invariant h i d _ s.files hi hf rfl
  | deleteCb i d error hi hd => exact deleteCb_invariant h i d error hi hd
  | takeEffect i f sv sv' files' hi he =>
    rcases takeEffect_some sv sv' f s.files files' he with ⟨-,rfl,rfl⟩
    exact moved_invariant h i sv _ _ hi rfl rfl rfl
      (run_keeps sv.saved f (h.contents.saved sv (List.mem_of_getElem? hi)) h.contents.disk)
  | fail i f error sv sv' hi he =>
    rcases fail_some sv sv' f error he with ⟨-,-,rfl⟩
    exact moved_invariant h i sv _ s.files hi rfl rfl rfl h.contents.disk
  | opCb i f sv sv' hi he =>
    rcases opCb_some sv sv' f he with ⟨error,-,rfl⟩
    exact moved_invariant h i sv _ s.files hi rfl rfl rfl h.contents.disk
  | saveCb i sv result hi _ hr => exact saveCb_invariant h i sv result hi hr

theorem initAsync_invariant (enabled : Bool) (clock : EpgClock) (files : Directory)
    (original : List UsedCode)
    (h : usedCodesOfBytes ((files .usedCodes).getD []) = some original) :
    Invariant original (initAsync (epgManagerInit enabled) clock files) := by
  constructor
  · exact initAsync_accounts _ clock files
  · constructor
    · exact ⟨original,h,List.Perm.refl _⟩
    · intro l hl _ data hdata
      simp only [initAsync,List.mem_cons,List.not_mem_nil,or_false] at hl
      rcases hl with rfl | rfl | rfl | rfl <;> cases hdata
    · exact nofun
    · exact nofun
    · exact ⟨⟨.usedCodes, .inFlight⟩,by simp [initAsync],rfl⟩
  · rintro - (rfl | hl)
    · rfl
    · cases hl

theorem initialised_loaded {original : List UsedCode} {s : System} (h : Invariant original s)
    (hd : Initialised s) : usedCodesLoaded s = true := by
  rcases h.contents.loading with ⟨l,hl,hf⟩
  have hnone := (h.accounts.finished hd).1
  have howed := h.accounts.owed
  have hzero : s.loads.countP (fun l => !l.isCalled) = 0 := by
    unfold outstanding at howed
    omega
  have hcalled := List.countP_eq_zero.mp hzero l hl
  apply List.any_eq_true.mpr
  exact ⟨l,hl,by simpa [hf] using hcalled⟩

/-- In every run which loads the used codes before it changes the expiry time,
initialisation that succeeds keeps the used codes, in memory and on disk. -/
theorem used_codes_survive (clock : EpgClock) (files : Directory) (original : List UsedCode)
    (hf : usedCodesOfBytes ((files .usedCodes).getD []) = some original)
    (ops : List Operation) (s : System)
    (ho : Along step (UsedCodesFirst original) ops (initAsync (epgManagerInit true) clock files))
    (hr : run step ops (initAsync (epgManagerInit true) clock files) = some s)
    (hd : Initialised s) :
    s.manager.usedCodes = gArraySort original ∧ Keeps original (s.files .usedCodes) := by
  have hinv : Invariant original s :=
    run_invariant_along (fun a op b hi hp hs => step_invariant a op b hi hp hs)
      (initAsync_invariant true clock files original hf) ho hr
  constructor
  · apply hinv.known
    · exact (hinv.accounts.finished hd).2
    · exact Or.inr (initialised_loaded hinv hd)
  · exact hinv.contents.disk

def setsNoExpiry (self : EpgManager) (clock : EpgClock) (file : StateFile)
    (data : Option (List UInt8)) : Bool :=
  let same : UInt64 → Bool := fun span => self.expiryTimeSecs = expiryAfter clock clock.time span
  (fileSpan clock file (data.getD [])).all same &&
    (deducedSpan (loadFile self clock file data).2.1 clock file).all same

theorem setsNoExpiry_iff (self : EpgManager) (clock : EpgClock) (file : StateFile)
    (data : Option (List UInt8)) :
    setsNoExpiry self clock file data = true ↔ SetsNoExpiry self clock file data := by
  simp only [setsNoExpiry,SetsNoExpiry,Bool.and_eq_true,Option.all_eq_true,decide_eq_true_eq]
  constructor
  · intro h span hs
    exact hs.elim (h.1 span) (h.2 span)
  · intro h
    exact ⟨fun span hs => h span (Or.inl hs),fun span hs => h span (Or.inr hs)⟩

instance (self : EpgManager) (clock : EpgClock) (file : StateFile) (data : Option (List UInt8)) :
    Decidable (SetsNoExpiry self clock file data) :=
  decidable_of_iff _ (setsNoExpiry_iff self clock file data)

instance (original : List UsedCode) (s : System) (op : Operation) :
    Decidable (UsedCodesFirst original s op) :=
  match op with
  | .loadCb _ => inferInstanceAs (Decidable (_ ∨ _ ∨ ∀ l ∈ _, ∀ data ∈ _, _))
  | .timePasses _ => isTrue trivial
  | .read _ => isTrue trivial
  | .readFails _ _ => isTrue trivial
  | .delete _ => isTrue trivial
  | .deleteFails _ _ => isTrue trivial
  | .deleteCb _ => isTrue trivial
  | .takeEffect _ _ => isTrue trivial
  | .fail _ _ _ => isTrue trivial
  | .opCb _ _ => isTrue trivial
  | .saveCb _ => isTrue trivial

def spentCode : List UsedCode := [⟨1, .period1Day⟩]

def savedFiles : Directory :=
  directoryOf ⟨5000, 86400, gArraySort spentCode⟩ (List.replicate 64 0)

def hourLater : EpgClock := ⟨20, 8600, true⟩

def loadNow (i : ℕ) : List Operation := [.read i, .loadCb i]

def saveNow : List Operation :=
  SaveFile.all.map (Operation.takeEffect 0) ++ SaveFile.all.map (Operation.opCb 0) ++ [.saveCb 0]

theorem used_codes_survive_example :
    ∃ s, run step (loadNow 1 ++ loadNow 0 ++ loadNow 4 ++ saveNow ++ loadNow 2 ++ loadNow 3)
        (initAsync (epgManagerInit true) hourLater savedFiles) = some s ∧
      s.manager.usedCodes = gArraySort spentCode ∧ Keeps spentCode (s.files .usedCodes) := by
  have h : ((run step (loadNow 1 ++ loadNow 0 ++ loadNow 4 ++ saveNow ++ loadNow 2 ++ loadNow 3)
      (initAsync (epgManagerInit true) hourLater savedFiles)).any
        (fun s => s.task.returned = [.ok (.boolean true)])) = true := by decide +kernel
  rcases (Option.any_eq_true _ _).mp h with ⟨s,hs,hd⟩
  exact ⟨s,hs,used_codes_survive hourLater savedFiles spentCode (by decide +kernel) _ s
    (by decide +kernel) hs ⟨.boolean true,by rw [of_decide_eq_true hd]; exact List.mem_singleton_self _⟩⟩

/-- Clock-time and expiry-seconds are loaded first: the save that follows finds
no used codes in memory and deletes their file before it is read. -/
theorem spent_code_forgotten :
    ¬ ∀ (ops : List Operation) (s : System),
      run step ops (initAsync (epgManagerInit true) hourLater savedFiles) = some s →
      Initialised s → s.manager.enabled = true →
      s.manager.usedCodes = gArraySort spentCode ∧ Keeps spentCode (s.files .usedCodes) := by
  intro h
  have hf : ((run step
      (loadNow 0 ++ loadNow 4 ++ saveNow ++ loadNow 1 ++ loadNow 2 ++ loadNow 3)
      (initAsync (epgManagerInit true) hourLater savedFiles)).any
        (fun s => s.task.returned = [.ok (.boolean true)] ∧ s.manager.enabled = true ∧
          s.manager.usedCodes = noUsedCodes)) = true := by decide +kernel
  rcases (Option.any_eq_true _ _).mp hf with ⟨s,hs,hd⟩
  rcases of_decide_eq_true hd with ⟨hret,hen,hnone⟩
  have hkept := (h _ s hs ⟨.boolean true,by rw [hret]; exact List.mem_singleton_self _⟩ hen).1
  rw [hnone] at hkept
  exact absurd hkept (by decide +kernel)

end EosPayg.Startup
