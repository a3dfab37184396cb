import EosPayg.ExpiryCallback

/-!
# How the expiry time is decided

Only one load at a time can lead to an expiry time: that of the clock time, and
then that of the file it calls for. Until its callback has run nothing is saved
and none of the files it may read is touched; no other callback changes what it
will decide.
-/

set_option autoImplicit false

namespace EosPayg.ExpiryLoad
open EosPayg.WordArithmetic EosPayg.ManagerState EosPayg.ManagerFiles EosPayg.SaveQueue
  EosPayg.LoadCallback EosPayg.GuardedRun EosPayg.RecordList EosPayg.Initialisation
  EosPayg.InitTask EosPayg.InitProgress EosPayg.InitFault EosPayg.InitOutcome
  EosPayg.ExpiryCallback
open EosPayg.MultiTask (gTaskHadError)
open EosPayg.Shutdown (internalSaveStateCb internalSaveStateCb_kept)

def Load.decides (l : Load) : Bool := StateFile.ofExpiry l.file && !l.isCalled

def undecided (s : System) : ℕ := s.loads.countP Load.decides

def Reads (files : Directory) (l : Load) : Prop :=
  ∀ result, l.status = .read result → result = loadContents files l.file ∨
    ∃ error, error ≠ .notFound ∧ result = .failed error

/-- The one load that may still lead to an expiry time is that of a given file;
what it and its successor read is as it was, and nothing is saved. -/
structure Undecided (files : Directory) (file : StateFile) (s : System) : Prop where
  one : undecided s = 1
  loads : ∀ l ∈ s.loads, Load.decides l = true → l.file = file ∧ Reads files l
  saves : s.saves = []
  deletions : ∀ d ∈ s.deletions, d.file = .usedCodes
  files : ∀ f, StateFile.ofExpiry f = true → s.files f = files f
  expiryTimeSecs : s.manager.expiryTimeSecs = 0
  lastSaveExpirySecs : s.manager.lastSaveExpirySecs = none

theorem called_decides (l : Load) : Load.decides { l with status := .called } = false :=
  Bool.and_false _

theorem uncalled_decides {l : Load} (h : l.isCalled = false) :
    Load.decides l = StateFile.ofExpiry l.file := by
  rw [Load.decides,h]
  exact Bool.and_true _

theorem setLoad_undecided {s : System} (i : ℕ) (l : Load) (result : LoadResult)
    (hi : s.loads[i]? = some l) (hf : l.status = .inFlight) :
    undecided (setLoad s i l (.read result)) = undecided s := by
  apply countP_kept s.loads i l _ Load.decides hi
  exact (uncalled_decides rfl).trans (uncalled_decides (inFlight_uncalled hf)).symm

theorem read_undecided {files : Directory} {file : StateFile} {s : System}
    (h : Undecided files file s) (i : ℕ) (l : Load) (result : LoadResult)
    (hi : s.loads[i]? = some l) (hf : l.status = .inFlight)
    (hr : result = loadContents s.files l.file ∨ ∃ error, error ≠ .notFound ∧
      result = .failed error) : Undecided files file (setLoad s i l (.read result)) := by
  refine ⟨(setLoad_undecided i l result hi hf).trans h.one,?_,h.saves,h.deletions,h.files,
    h.expiryTimeSecs,h.lastSaveExpirySecs⟩
  intro o ho hd
  rcases List.mem_or_eq_of_mem_set ho with hm | rfl
  · exact h.loads o hm hd
  · have hofx : StateFile.ofExpiry l.file = true :=
      (@uncalled_decides { l with status := .read result } rfl).symm.trans hd
    have hd' := (uncalled_decides (inFlight_uncalled hf)).trans hofx
    refine ⟨(h.loads l (List.mem_of_getElem? hi) hd').1,?_⟩
    rintro r ⟨⟩
    refine hr.imp_left (fun hread => ?_)
    rw [hread]
    unfold loadContents
    rw [h.files l.file hofx]

theorem loadCb_lists (s : System) (i : ℕ) (l : Load) (result : LoadResult) (out : Outcome)
    (hout : fileLoadCb s.manager s.clock (gTaskHadError s.task) l.file result = out) :
    (loadCb s i l result).loads =
        s.loads.set i { l with status := .called }++out.2.filterMap Effect.load ∧
      (loadCb s i l result).deletions = s.deletions++out.2.filterMap Effect.deletion ∧
      (loadCb s i l result).saves = s.saves++out.2.filterMap (Effect.started s.clock) ∧
      (loadCb s i l result).files = s.files ∧ (loadCb s i l result).clock = s.clock ∧
      (loadCb s i l result).manager = out.1 := by
  subst hout
  unfold loadCb acted loadActs
  generalize fileLoadCb s.manager s.clock (gTaskHadError s.task) l.file result = out
  dsimp only
  obtain ⟨hl,hd,hs,hc⟩ := performAll_lists out.2 { setLoad s i l .called with manager := out.1 }
  have hx := performAll_extends out.2 { setLoad s i l .called with manager := out.1 }
  exact ⟨hl,hd,hs,hx.files,hc,hx.manager⟩

theorem loadCb_aside (s : System) (i : ℕ) (l : Load) (result : LoadResult)
    (hf : StateFile.ofExpiry l.file = false) :
    (loadCb s i l result).loads = s.loads.set i { l with status := .called } ∧
      (loadCb s i l result).saves = s.saves ∧
      (∀ d ∈ (loadCb s i l result).deletions, d ∈ s.deletions ∨ d.file = .usedCodes) ∧
      (loadCb s i l result).files = s.files ∧ (loadCb s i l result).clock = s.clock ∧
      (loadCb s i l result).manager.expiryTimeSecs = s.manager.expiryTimeSecs ∧
      (loadCb s i l result).manager.lastSaveTimeSecs = s.manager.lastSaveTimeSecs ∧
      (loadCb s i l result).manager.lastSaveExpirySecs = s.manager.lastSaveExpirySecs := by
  have ha := fileLoadCb_aside s.manager s.clock (gTaskHadError s.task) l.file result hf
  obtain ⟨hl,hd,hs,hfiles,hc,hm⟩ := loadCb_lists s i l result _ rfl
  rw [hl,hs,hm,hfiles,hc,ha.loads,ha.saves,List.append_nil,List.append_nil]
  refine ⟨rfl,rfl,?_,rfl,rfl,ha.expiryTimeSecs,ha.lastSaveTimeSecs,ha.lastSaveExpirySecs⟩
  intro d hm
  rw [hd] at hm
  exact (List.mem_append.mp hm).imp_right (ha.deletions d)

theorem aside_undecided {files : Directory} {file : StateFile} {s : System}
    (h : Undecided files file s) (i : ℕ) (l : Load) (result : LoadResult)
    (hi : s.loads[i]? = some l) (hf : StateFile.ofExpiry l.file = false) :
    Undecided files file (loadCb s i l result) := by
  obtain ⟨hl,hs,hd,hfiles,-,hx,-,hsecs⟩ := loadCb_aside s i l result hf
  have hno : Load.decides l = false := by
    unfold Load.decides
    rw [hf]
    rfl
  constructor
  · unfold undecided
    rw [hl,countP_kept s.loads i l _ Load.decides hi ((called_decides l).trans hno.symm)]
    exact h.one
  · intro o ho hdec
    rw [hl] at ho
    rcases List.mem_or_eq_of_mem_set ho with hm | rfl
    · exact h.loads o hm hdec
    · rw [called_decides] at hdec
      cases hdec
  · exact hs.trans h.saves
  · intro d hm
    exact (hd d hm).elim (h.deletions d) id
  · rw [hfiles]
    exact h.files
  · exact hx.trans h.expiryTimeSecs
  · exact hsecs.trans h.lastSaveExpirySecs

theorem deletion_undecided {files files' : Directory} {file : StateFile} {s : System}
    (h : Undecided files file s) (i : ℕ) (d : Deletion) (status : Status)
    (hi : s.deletions[i]? = some d)
    (hf : ∀ f, StateFile.ofExpiry f = true → files' f = s.files f) :
    Undecided files file { setDeletion s i d status with files := files' } := by
  refine ⟨h.one,h.loads,h.saves,?_,fun f hx => (hf f hx).trans (h.files f hx),
    h.expiryTimeSecs,h.lastSaveExpirySecs⟩
  exact forall_set s.deletions i _ h.deletions (h.deletions d (List.mem_of_getElem? hi))

theorem run_elsewhere (op : FileOp) (files : Directory) (f : StateFile) (h : f ≠ op.file) :
    (FileOp.run op files).2 f = files f := (run_succeeded op files).2.2 f h

theorem deleteCb_lists (s : System) (i : ℕ) (d : Deletion) (error : Option GIOError) :
    ∃ t, deleteCb s i d error = { setDeletion s i d (.called error) with task := t } := by
  unfold deleteCb acted deleteActs
  dsimp only
  rcases fileLoadDeleteCb_cases s.taskData error with he | ⟨e,he⟩ <;> rw [he] <;> exact ⟨_,rfl⟩

theorem reportEffects_lists (forTask : Bool) (result : Except GIOError Unit) (clock : EpgClock) :
    (reportEffects forTask result).filterMap Effect.load = [] ∧
      (reportEffects forTask result).filterMap Effect.deletion = [] ∧
      (reportEffects forTask result).filterMap (Effect.started clock) = [] := by
  unfold reportEffects
  cases forTask <;> cases result <;> exact ⟨rfl,rfl,rfl⟩

theorem saveCb_lists (s : System) (i : ℕ) (sv : Save) (result : Except GIOError Unit) :
    (saveCb s i sv result).loads = s.loads ∧ (saveCb s i sv result).deletions = s.deletions ∧
      (saveCb s i sv result).saves = s.saves.set i { sv with reported := true } := by
  obtain ⟨hl,hd,hs,-⟩ := performAll_lists (reportEffects sv.forTask result)
    (setReported s i sv (internalSaveStateCb s.manager result).1)
  obtain ⟨hnl,hnd,hns⟩ := reportEffects_lists sv.forTask result
    (setReported s i sv (internalSaveStateCb s.manager result).1).clock
  unfold saveCb acted saveActs
  dsimp only
  rw [hl,hd,hs,hnl,hnd,hns,List.append_nil,List.append_nil,List.append_nil]
  exact ⟨rfl,rfl,rfl⟩

/-- A step leaves the decision open, or is the callback of the load it waits for. -/
theorem undecided_step {files : Directory} {file : StateFile} {s s' : System} {op : Operation}
    (h : Undecided files file s) (hs : step s op = some s') :
    (Undecided files file s' ∧ s'.manager.lastSaveTimeSecs = s.manager.lastSaveTimeSecs) ∨
      ∃ i l result, op = .loadCb i ∧ s.loads[i]? = some l ∧ Load.decides l = true ∧
        l.file = file ∧ l.status = .read result ∧ (result = loadContents files file ∨
          ∃ error, error ≠ .notFound ∧ result = .failed error) ∧ s' = loadCb s i l result := by
  have hnone (i : ℕ) (sv : Save) (hi : s.saves[i]? = some sv) : False := by
    rw [h.saves] at hi
    cases hi
  cases step_cases s s' op hs with
  | timePasses clock _ =>
    exact Or.inl ⟨⟨h.one,h.loads,h.saves,h.deletions,h.files,h.expiryTimeSecs,
      h.lastSaveExpirySecs⟩,rfl⟩
  | read i l hi hf => exact Or.inl ⟨read_undecided h i l _ hi hf (Or.inl rfl),rfl⟩
  | readFails i error l hi hf he =>
    exact Or.inl ⟨read_undecided h i l _ hi hf (Or.inr ⟨error,he,rfl⟩),rfl⟩
  | loadCb i l result hi hl =>
    cases hf : StateFile.ofExpiry l.file with
    | false =>
      exact Or.inl ⟨aside_undecided h i l result hi hf,
        (loadCb_aside s i l result hf).2.2.2.2.2.2.1⟩
    | true =>
      have hd := (uncalled_decides (read_uncalled hl)).trans hf
      obtain ⟨hfile,hreads⟩ := h.loads l (List.mem_of_getElem? hi) hd
      exact Or.inr ⟨i,l,result,rfl,hi,hd,hfile,hl,hfile ▸ hreads result hl,rfl⟩
  | delete i d hi hf =>
    refine Or.inl ⟨deletion_undecided h i d _ hi (fun f hx => ?_),rfl⟩
    apply run_elsewhere
    show f ≠ d.file
    rw [h.deletions d (List.mem_of_getElem? hi)]
    rintro rfl
    cases hx
  | deleteFails i error d hi hf =>
    exact Or.inl ⟨deletion_undecided h i d _ hi (fun _ _ => rfl),rfl⟩
  | deleteCb i d error hi hd =>
    obtain ⟨t,ht⟩ := deleteCb_lists s i d error
    have hdel := @deletion_undecided files s.files file s h i d (.called error) hi (fun _ _ => rfl)
    rw [ht]
    exact Or.inl ⟨⟨hdel.one,hdel.loads,hdel.saves,hdel.deletions,hdel.files,
      hdel.expiryTimeSecs,hdel.lastSaveExpirySecs⟩,rfl⟩
  | takeEffect i f sv sv' files' hi he => exact (hnone i sv hi).elim
  | fail i f error sv sv' hi he => exact (hnone i sv hi).elim
  | opCb i f sv sv' hi he => exact (hnone i sv hi).elim
  | saveCb i sv result hi hresult hr => exact (hnone i sv hi).elim

theorem decided_step {s s' : System} {op : Operation} (h : undecided s = 0)
    (hs : step s op = some s') :
    undecided s' = 0 ∧ s'.manager.expiryTimeSecs = s.manager.expiryTimeSecs := by
  cases step_cases s s' op hs with
  | timePasses clock _ => exact ⟨h,rfl⟩
  | read i l hi hf => exact ⟨(setLoad_undecided i l _ hi hf).trans h,rfl⟩
  | readFails i error l hi hf he => exact ⟨(setLoad_undecided i l _ hi hf).trans h,rfl⟩
  | loadCb i l result hi hl =>
    have hd : Load.decides l = false := by
      have := List.countP_eq_zero.mp h l (List.mem_of_getElem? hi)
      simpa using this
    have hf := (uncalled_decides (read_uncalled hl)).symm.trans hd
    obtain ⟨hloads,-,-,-,-,hx,-,-⟩ := loadCb_aside s i l result hf
    refine ⟨?_,hx⟩
    unfold undecided
    rw [hloads,countP_kept s.loads i l _ Load.decides hi ((called_decides l).trans hd.symm)]
    exact h
  | deleteCb i d error hi hd =>
    obtain ⟨t,ht⟩ := deleteCb_lists s i d error
    rw [ht]
    exact ⟨h,rfl⟩
  | saveCb i sv result hi hresult hr =>
    obtain ⟨hl,-,-⟩ := saveCb_lists s i sv result
    constructor
    · unfold undecided
      rw [hl]
      exact h
    · have hm : (saveCb s i sv result).manager = (internalSaveStateCb s.manager result).1 :=
        (performAll_extends (reportEffects sv.forTask result) _).manager
      rw [hm]
      exact (internalSaveStateCb_kept s.manager result).1
  | _ => exact ⟨h,rfl⟩

theorem called_undecided (s : System) (i : ℕ) (l : Load) (hi : s.loads[i]? = some l)
    (hd : Load.decides l = true) :
    (s.loads.set i { l with status := .called }).countP Load.decides+1 = undecided s := by
  have hcount := countP_exchange s.loads i l { l with status := .called } Load.decides hi
  simp only [hd,called_decides,if_true,Bool.false_eq_true,if_false] at hcount
  exact hcount

theorem settled_undecided {files : Directory} {file : StateFile} {s : System}
    (h : Undecided files file s) (i : ℕ) (l : Load) (result : LoadResult)
    (hi : s.loads[i]? = some l) (hd : Load.decides l = true) (out : Outcome)
    (hout : fileLoadCb s.manager s.clock (gTaskHadError s.task) l.file result = out)
    (hl : out.2.filterMap Effect.load = []) : undecided (loadCb s i l result) = 0 := by
  have hcount := called_undecided s i l hi hd
  rw [h.one] at hcount
  unfold undecided
  rw [(loadCb_lists s i l result out hout).1,hl,List.append_nil]
  exact Nat.succ.inj hcount

theorem handed_undecided {files : Directory} {s : System} (h : Undecided files .clockTime s)
    (i : ℕ) (l : Load) (result : LoadResult) (hi : s.loads[i]? = some l)
    (hd : Load.decides l = true) (timeSecs : Option UInt64) (child : StateFile)
    (hchild : StateFile.ofExpiry child = true)
    (hout : fileLoadCb s.manager s.clock (gTaskHadError s.task) l.file result =
      ({ s.manager with lastSaveTimeSecs := timeSecs },
        [.taskIncrement, .loadContents child, .taskReturnBoolean])) :
    Undecided files child (loadCb s i l result) ∧
      (loadCb s i l result).manager.lastSaveTimeSecs = timeSecs := by
  have hcount := called_undecided s i l hi hd
  rw [h.one] at hcount
  have hzero : (s.loads.set i { l with status := .called }).countP Load.decides = 0 :=
    Nat.succ.inj hcount
  obtain ⟨hl,hdel,hs,hfiles,-,hm⟩ := loadCb_lists s i l result _ hout
  have hdec : Load.decides ⟨child,.inFlight⟩ = true := by
    rw [Load.decides,hchild]
    rfl
  rw [hm]
  refine ⟨⟨?_,?_,?_,?_,?_,?_,?_⟩,rfl⟩
  · unfold undecided
    rw [hl,List.countP_append,hzero]
    exact (Nat.zero_add _).trans (List.countP_singleton.trans (if_pos hdec))
  · intro o ho hod
    rw [hl] at ho
    rcases List.mem_append.mp ho with ho | ho
    · exact absurd hod (List.countP_eq_zero.mp hzero o ho)
    · rw [List.mem_singleton.mp ho]
      exact ⟨rfl,nofun⟩
  · rw [hs]
    exact (List.append_nil _).trans h.saves
  · rw [hdel]
    exact fun d hd => h.deletions d (by simpa [Effect.deletion] using hd)
  · rw [hfiles]
    exact h.files
  · rw [hm]
    exact h.expiryTimeSecs
  · rw [hm]
    exact h.lastSaveExpirySecs

theorem childFile_ofExpiry (data : Option (List UInt8)) :
    StateFile.ofExpiry (childFile data) = true := by
  unfold childFile
  split_ifs <;> rfl

theorem step_clock {s s' : System} {op : Operation} (hs : step s op = some s')
    (ha : Operation.acts op = true) : s'.clock = s.clock := by
  cases step_cases s s' op hs with
  | timePasses clock _ => cases ha
  | loadCb i l result hi hl => exact (loadCb_lists s i l result _ rfl).2.2.2.2.1
  | deleteCb i d error hi hd =>
    obtain ⟨t,ht⟩ := deleteCb_lists s i d error
    rw [ht]
    rfl
  | saveCb i sv result hi hresult hr => exact (performAll_lists _ _).2.2.2
  | _ => rfl

/-- What is known of the expiry time while initialisation goes on at one reading
of the clocks: unless there was a fault, the clock time or the file it calls for
is still to be loaded, or the expiry time is what the directory gives. -/
structure Deciding (files : Directory) (clock : EpgClock) (s : System) : Prop where
  completing : Completing s
  steady : s.clock = clock
  stage : Faulted s ∨
    (Undecided files .clockTime s ∧ s.manager.lastSaveTimeSecs = none) ∨
    (Undecided files (childFile (files .clockTime)) s ∧
      s.manager.lastSaveTimeSecs = savedWord (files .clockTime)) ∨
    (undecided s = 0 ∧ s.manager.expiryTimeSecs = expiryOf clock files)

theorem faultless_read {files : Directory} {s : System} (h : Completing s)
    (hno : ¬ Faulted s) (l : Load) (result : LoadResult) (file : StateFile) (hm : l ∈ s.loads)
    (hfile : l.file = file) (hl : l.status = .read result)
    (hr : result = loadContents files file ∨
      ∃ error, error ≠ .notFound ∧ result = .failed error) :
    gTaskHadError s.task = false ∧ ¬ MalformedData (files file) file ∧
      result = loadContents files file := by
  subst hfile
  have hgood : ¬ Refused l.file result := fun hbad =>
    hno (Or.inr (Or.inl ⟨l,hm,result,hl,hbad⟩))
  have herr : gTaskHadError s.task = false := by
    rw [hadError_eq h.accounts]
    by_contra he
    exact hno (Or.inl (Or.inl (by simpa using he)))
  rcases hr with rfl | ⟨error,he,rfl⟩
  · refine ⟨herr,fun hbad => hgood ?_,rfl⟩
    obtain ⟨bytes,hb,hmal⟩ := hbad
    unfold loadContents
    rw [Option.mem_def.mp hb]
    exact hmal
  · exact absurd he hgood

theorem faultless_callback {files : Directory} {s : System} (h : Completing s)
    (hno : ¬ Faulted s) (l : Load) (result : LoadResult) (file : StateFile) (hm : l ∈ s.loads)
    (hfile : l.file = file) (hl : l.status = .read result)
    (hr : result = loadContents files file ∨
      ∃ error, error ≠ .notFound ∧ result = .failed error) :
    ¬ MalformedData (files file) file ∧
      fileLoadCb s.manager s.clock (gTaskHadError s.task) l.file result =
        updateFromFile s.manager s.clock file (files file) := by
  obtain ⟨herr,hformed,rfl⟩ := faultless_read h hno l result file hm hfile hl hr
  refine ⟨hformed,?_⟩
  rw [herr,hfile,fileLoadCb_seen]

theorem step_deciding {files : Directory} {clock : EpgClock} {s s' : System} {op : Operation}
    (h : Deciding files clock s) (ha : Operation.acts op = true) (hs : step s op = some s') :
    Deciding files clock s' := by
  refine ⟨step_completing h.completing hs,(step_clock hs ha).trans h.steady,?_⟩
  by_cases hf : Faulted s
  · exact Or.inl ((completing_faulted h.completing hs).mpr (Or.inl hf))
  right
  rcases h.stage with hbad | ⟨hu,ht⟩ | ⟨hu,ht⟩ | ⟨hz,hx⟩
  · exact absurd hbad hf
  · rcases undecided_step hu hs with ⟨hu',ht'⟩ | ⟨i,l,result,rfl,hi,hd,hfile,hl,hr,rfl⟩
    · exact Or.inl ⟨hu',ht'.trans ht⟩
    · obtain ⟨hformed,hcb⟩ := faultless_callback h.completing hf l result .clockTime
        (List.mem_of_getElem? hi) hfile hl hr
      rw [clockTime_formed s.manager s.clock (files .clockTime) hformed ht
        hu.lastSaveExpirySecs] at hcb
      exact Or.inr (Or.inl (handed_undecided hu i l result hi hd _ _ (childFile_ofExpiry _) hcb))
  · rcases undecided_step hu hs with ⟨hu',ht'⟩ | ⟨i,l,result,rfl,hi,hd,hfile,hl,hr,rfl⟩
    · exact Or.inr (Or.inl ⟨hu',ht'.trans ht⟩)
    · obtain ⟨hformed,hcb⟩ := faultless_callback h.completing hf l result _
        (List.mem_of_getElem? hi) hfile hl hr
      have hset := childFile_settles s.manager s.clock files hformed hu.expiryTimeSecs ht
        hu.lastSaveExpirySecs
      have hm := (loadCb_lists s i l result _ hcb).2.2.2.2.2
      right
      right
      constructor
      · exact settled_undecided hu i l result hi hd _ hcb hset.loads
      · rw [hm,hset.expiryTimeSecs,h.steady]
  · obtain ⟨hz',hx'⟩ := decided_step hz hs
    exact Or.inr (Or.inr ⟨hz',hx'.trans hx⟩)

theorem initAsync_undecided (self : EpgManager) (clock : EpgClock) (files : Directory)
    (hz : self.expiryTimeSecs = 0) (hx : self.lastSaveExpirySecs = none) :
    Undecided files .clockTime (initAsync self clock files) := by
  refine ⟨rfl,?_,rfl,List.forall_mem_nil _,fun _ _ => rfl,hz,hx⟩
  intro l hl hd
  simp only [initAsync,List.mem_cons,List.not_mem_nil,or_false] at hl
  rcases hl with rfl | rfl | rfl | rfl
  · exact ⟨rfl,fun _ h => by cases h⟩
  all_goals cases hd

theorem initAsync_deciding (enabled : Bool) (clock : EpgClock) (files : Directory) :
    Deciding files clock (initAsync (epgManagerInit enabled) clock files) :=
  ⟨initAsync_completing _ clock files,rfl,
    Or.inr (Or.inl ⟨initAsync_undecided _ clock files rfl rfl,rfl⟩)⟩

/-- Initialisation that succeeds at one reading of the clocks leaves the expiry
time which the files give, whatever the order of the callbacks. -/
theorem initialised_expiry (enabled : Bool) (clock : EpgClock) (files : Directory)
    (ops : List Operation) (s : System) (ha : ∀ op ∈ ops, Operation.acts op = true)
    (hr : run step ops (initAsync (epgManagerInit enabled) clock files) = some s)
    (hd : Initialised s) : s.manager.expiryTimeSecs = expiryOf clock files := by
  have h : Deciding files clock s :=
    run_invariant_along (P := fun _ op => Operation.acts op = true)
      (fun _ _ _ hk hact hs => step_deciding hk hact hs) (initAsync_deciding enabled clock files)
      (along_of_forall ha _) hr
  obtain ⟨hc,he⟩ := initialised_complete h.completing hd
  have hall (file : StateFile) (hu : Undecided files file s) : False := by
    have hz : undecided s = 0 := List.countP_eq_zero.mpr (fun l hl => by
      rw [Load.decides,hc.loads l hl]
      simp)
    rw [hu.one] at hz
    cases hz
  rcases h.stage with hf | ⟨hu,-⟩ | ⟨hu,-⟩ | ⟨-,hx⟩
  · have := (complete_told h.completing hc).mp hf
    rw [he] at this
    cases this
  · exact (hall _ hu).elim
  · exact (hall _ hu).elim
  · exact hx

end EosPayg.ExpiryLoad
