import EosPayg.ExpiryLoad
import EosPayg.Startup

/-!
# Malformed files do not outlast the attempts to load them

An attempt at initialisation that fails over a malformed file has that file
deleted. As long as the disk does what it is asked no attempt leaves a file
malformed that was not, so that each failure takes one of finitely many away.
-/

set_option autoImplicit false

namespace EosPayg.SelfHealing
open EosPayg.WordArithmetic EosPayg.ManagerState EosPayg.ManagerFiles EosPayg.SaveQueue
  EosPayg.GuardedRun EosPayg.RecordList EosPayg.Initialisation EosPayg.InitProgress
  EosPayg.InitFault EosPayg.InitOutcome EosPayg.ExpiryLoad
open EosPayg.MultiTask (GTask gTaskHadError increment returnBoolean returnError)
open EosPayg.ExpiryCallback (eightBytes_formed)
open EosPayg.ExpiryTimer (fileLoadCb_bytes loadedBytes)
open EosPayg.Shutdown (internalSaveStateCb)

def Operation.carriedOut : Operation → Bool
  | .readFails _ _ => false
  | .deleteFails _ _ => false
  | .fail _ _ _ => false
  | _ => true

instance (data : Option (List UInt8)) : (file : StateFile) → Decidable (MalformedData data file)
  | .clockTime => decidable_of_iff _ (wordFile_malformed data .clockTime (fun _ => rfl)).symm
  | .expirySeconds =>
    decidable_of_iff _ (wordFile_malformed data .expirySeconds (fun _ => rfl)).symm
  | .usedCodes => decidable_of_iff _ (usedCodes_malformed data).symm
  | .expiryTime => decidable_of_iff _ (wordFile_malformed data .expiryTime (fun _ => rfl)).symm
  | .key => isFalse (by simp [MalformedData,Malformed])
  | .accountId => isFalse (by simp [MalformedData,Malformed])

def malformedFiles (files : Directory) : Finset StateFile :=
  ({.clockTime, .expirySeconds, .usedCodes, .expiryTime} : Finset StateFile).filter
    (fun f => MalformedData (files f) f)

theorem mem_malformedFiles (files : Directory) (f : StateFile) :
    f ∈ malformedFiles files ↔ MalformedData (files f) f := by
  unfold malformedFiles
  rw [Finset.mem_filter,and_iff_right_iff_imp]
  rintro ⟨bytes,-,h⟩
  cases f with
  | key => exact h.elim
  | accountId => exact h.elim
  | _ => decide

def Unspoilt (files files' : Directory) : Prop :=
  ∀ f, MalformedData (files' f) f → files' f = files f

theorem unspoilt_refl (files : Directory) : Unspoilt files files := fun _ _ => rfl

theorem unspoilt_trans {a b c : Directory} (h : Unspoilt a b) (h' : Unspoilt b c) :
    Unspoilt a c := by
  intro f hf
  have hb := h' f hf
  rw [hb] at hf
  exact hb.trans (h f hf)

theorem unspoilt_malformed {a b : Directory} (h : Unspoilt a b) (f : StateFile)
    (hf : MalformedData (b f) f) : MalformedData (a f) f := by
  rwa [← h f hf]

theorem unspoilt_subset {a b : Directory} (h : Unspoilt a b) :
    malformedFiles b ⊆ malformedFiles a := by
  intro f hf
  rw [mem_malformedFiles] at hf ⊢
  exact unspoilt_malformed h f hf

theorem run_unspoilt (op : FileOp) (files : Directory) (h : ¬ MalformedData op.result op.file) :
    Unspoilt files (FileOp.run op files).2 := by
  intro f hf
  by_cases hfile : f = op.file
  · rw [hfile,(run_succeeded op files).2.1] at hf
    exact absurd hf h
  · exact run_elsewhere op files f hfile

theorem delete_formed (file : StateFile) : ¬ MalformedData (FileOp.delete file).result file :=
  fun ⟨_,hb,_⟩ => Option.not_mem_none _ hb

theorem saveOp_formed (saved : SavedState) (f : SaveFile) :
    ¬ MalformedData (saveOp saved f).result (saveOp saved f).file := by
  rw [saveOp_file]
  cases f with
  | clockTime => exact eightBytes_formed rfl (wordBytes_length saved.clockTime) .clockTime rfl
  | expirySeconds =>
    exact eightBytes_formed rfl (wordBytes_length saved.expirySeconds) .expirySeconds rfl
  | usedCodes =>
    show ¬ MalformedData _ StateFile.usedCodes
    rw [saveOp_usedCodes,usedCodes_malformed,usedCodesImage_decodes]
    exact Option.some_ne_none _

def ReadOf (files : Directory) (file : StateFile) (result : LoadResult) : Prop :=
  ∃ data, loadedBytes result = some data ∧
    (MalformedData data file → MalformedData (files file) file)

def DeletesWell (files : Directory) (d : Deletion) : Prop :=
  ¬ BadDeletion d ∧ (d.status = .inFlight ∨ ¬ MalformedData (files d.file) d.file)

/-- What an attempt begun in a directory has done to the disk. -/
structure Disk (files : Directory) (s : System) : Prop where
  unspoilt : Unspoilt files s.files
  reads : ∀ l ∈ s.loads, ∀ result, l.status = .read result → ReadOf files l.file result
  deletions : ∀ d ∈ s.deletions, DeletesWell s.files d
  saves : ∀ sv ∈ s.saves, ¬ BadSave sv

theorem deletesWell_unspoilt {files files' : Directory} {d : Deletion}
    (h : DeletesWell files d) (hu : Unspoilt files files') : DeletesWell files' d :=
  ⟨h.1,h.2.imp_right (fun hf hb => hf (unspoilt_malformed hu d.file hb))⟩

theorem inFlight_deletesWell (files : Directory) (d : Deletion) (h : d.status = .inFlight) :
    DeletesWell files d :=
  ⟨inFlight_undeleted h,Or.inl h⟩

theorem performAll_deleted (effects : List Effect) (s : System) (d : Deletion)
    (hm : d ∈ (performAll s effects).deletions) : d ∈ s.deletions ∨ d.status = .inFlight := by
  rw [(performAll_lists effects s).2.1] at hm
  rcases List.mem_append.mp hm with hm | hm
  · exact Or.inl hm
  · obtain ⟨e,-,he⟩ := List.mem_filterMap.mp hm
    cases e with
    | deleteFile file =>
      cases he
      exact Or.inr rfl
    | _ => cases he

theorem moved_disk {files : Directory} {s : System} (h : Disk files s) (i : ℕ) (sv : Save)
    (files' : Directory) (hu : Unspoilt s.files files') (hgood : ¬ BadSave sv) :
    Disk files { s with saves := s.saves.set i sv, files := files' } := by
  refine ⟨unspoilt_trans h.unspoilt hu,h.reads,?_,?_⟩
  · exact fun d hd => deletesWell_unspoilt (h.deletions d hd) hu
  · exact forall_set s.saves i sv h.saves hgood

theorem deletion_disk {files : Directory} {s : System} (h : Disk files s) (i : ℕ) (d : Deletion)
    (status : Status) (files' : Directory) (hu : Unspoilt s.files files')
    (hwell : DeletesWell files' { d with status := status }) :
    Disk files { setDeletion s i d status with files := files' } := by
  refine ⟨unspoilt_trans h.unspoilt hu,h.reads,?_,h.saves⟩
  apply forall_set s.deletions i _ _ hwell
  exact fun o ho => deletesWell_unspoilt (h.deletions o ho) hu

theorem read_disk {files : Directory} {s : System} (h : Disk files s) (i : ℕ) (l : Load) :
    Disk files (setLoad s i l (.read (loadContents s.files l.file))) := by
  refine ⟨h.unspoilt,?_,h.deletions,h.saves⟩
  apply forall_set s.loads i _ h.reads
  rintro result ⟨⟩
  exact ⟨s.files l.file,loadedBytes_loadContents s.files l.file,
    unspoilt_malformed h.unspoilt l.file⟩

theorem loadCb_disk {files : Directory} {s : System} (h : Disk files s) (i : ℕ) (l : Load)
    (result : LoadResult) : Disk files (loadCb s i l result) := by
  unfold loadCb acted loadActs
  dsimp only
  generalize fileLoadCb s.manager s.clock (gTaskHadError s.task) l.file result = out
  show Disk files (performAll { setLoad s i l .called with manager := out.1 } out.2)
  have hx := performAll_extends out.2 { setLoad s i l .called with manager := out.1 }
  obtain ⟨new,hl,hnew⟩ := hx.loads
  constructor
  · rw [hx.files]
    exact h.unspoilt
  · rw [hl]
    intro o ho r hr
    rcases List.mem_append.mp ho with hold | hm
    · exact forall_set s.loads i { l with status := .called } h.reads (fun _ hc => by cases hc)
        o hold r hr
    · rw [hnew o hm] at hr
      cases hr
  · rw [hx.files]
    intro d hm
    rcases performAll_deleted _ _ d hm with hold | hfresh
    · exact h.deletions d hold
    · exact inFlight_deletesWell s.files d hfresh
  · intro sv hm
    rcases performAll_saved _ _ sv hm with hold | ⟨saved,forTask,clock,-,rfl⟩
    · exact h.saves sv hold
    · exact fun ⟨_,hb⟩ => Bool.false_ne_true hb

theorem delete_disk {files : Directory} {s : System} (h : Disk files s) (i : ℕ) (d : Deletion) :
    Disk files { setDeletion s i d (.done (FileOp.run (.delete d.file) s.files).1) with
      files := (FileOp.run (.delete d.file) s.files).2 } := by
  apply deletion_disk h i d _ _ (run_unspoilt _ _ (delete_formed d.file))
  refine ⟨deleted_good d s.files,Or.inr ?_⟩
  have hgone : (FileOp.run (.delete d.file) s.files).2 d.file = none :=
    (run_succeeded (.delete d.file) s.files).2.1
  rw [hgone]
  exact delete_formed d.file

theorem called_deletesWell {files : Directory} {d : Deletion} {error : Option GIOError}
    (h : DeletesWell files d) (hd : d.status = .done error) :
    DeletesWell files { d with status := .called error } := by
  constructor
  · rintro ⟨_,hb,-⟩
    cases hb
  · right
    apply h.2.resolve_left
    rw [hd]
    exact nofun

theorem saveCb_disk {files : Directory} {s : System} (h : Disk files s) (i : ℕ) (sv : Save)
    (result : Except GIOError Unit) (hm : sv ∈ s.saves) : Disk files (saveCb s i sv result) := by
  obtain ⟨hl,hd,hs⟩ := saveCb_lists s i sv result
  have hfiles : (saveCb s i sv result).files = s.files := (performAll_extends _ _).files
  constructor
  · rw [hfiles]
    exact h.unspoilt
  · rw [hl]
    exact h.reads
  · rw [hd,hfiles]
    exact h.deletions
  · rw [hs]
    exact forall_set s.saves i _ h.saves (h.saves sv hm)

theorem step_disk {files : Directory} {s s' : System} {op : Operation} (h : Disk files s)
    (ho : Operation.carriedOut op = true) (hs : step s op = some s') : Disk files s' := by
  cases step_cases s s' op hs with
  | timePasses clock _ => exact ⟨h.unspoilt,h.reads,h.deletions,h.saves⟩
  | read i l hi hf => exact read_disk h i l
  | readFails i error l hi hf he => cases ho
  | loadCb i l result hi hl => exact loadCb_disk h i l result
  | delete i d hi hf => exact delete_disk h i d
  | deleteFails i error d hi hf => cases ho
  | deleteCb i d error hi hd =>
    obtain ⟨t,ht⟩ := deleteCb_lists s i d error
    have hdel := deletion_disk h i d (.called error) s.files (unspoilt_refl _)
      (called_deletesWell (h.deletions d (List.mem_of_getElem? hi)) hd)
    rw [ht]
    exact ⟨hdel.unspoilt,hdel.reads,hdel.deletions,hdel.saves⟩
  | takeEffect i f sv sv' files' hi he =>
    rcases takeEffect_some sv sv' f s.files files' he with ⟨hf,rfl,rfl⟩
    apply moved_disk h i _ _ (run_unspoilt _ _ (saveOp_formed sv.saved f))
    rw [takeEffect_badSave sv f s.files hf]
    exact h.saves sv (List.mem_of_getElem? hi)
  | fail i f error sv sv' hi he => cases ho
  | opCb i f sv sv' hi he =>
    rcases opCb_some sv sv' f he with ⟨error,hf,rfl⟩
    apply moved_disk h i _ s.files (unspoilt_refl _)
    rw [opCb_badSave sv f error _ hf]
    exact h.saves sv (List.mem_of_getElem? hi)
  | saveCb i sv result hi hresult hr => exact saveCb_disk h i sv result (List.mem_of_getElem? hi)

theorem initAsync_disk (self : EpgManager) (clock : EpgClock) (files : Directory) :
    Disk files (initAsync self clock files) := by
  refine ⟨unspoilt_refl files,?_,List.forall_mem_nil _,List.forall_mem_nil _⟩
  intro l hl result hr
  simp only [initAsync,List.mem_cons,List.not_mem_nil,or_false] at hl
  rcases hl with rfl | rfl | rfl | rfl <;> cases hr

/-- What the task is to fail with, or has failed with, is the fault of a file
that was malformed when the attempt began and has a deletion started for it. -/
structure Blamed (files : Directory) (s : System) : Prop where
  data : ∀ e, s.taskData = some e → e = .invalidData ∧
    ∃ d ∈ s.deletions, MalformedData (files d.file) d.file
  told : ∀ e, .error e ∈ s.task.returned → s.taskData = some e

theorem increment_returned (t : GTask GIOError Unit) : (increment t).returned = t.returned := by
  unfold increment
  split_ifs <;> rfl

theorem returnBoolean_returned (t : GTask GIOError Unit) (e : GIOError)
    (h : .error e ∈ (returnBoolean t true).returned) : .error e ∈ t.returned := by
  unfold returnBoolean at h
  split_ifs at h
  · rcases List.mem_append.mp h with h | h
    · exact h
    · cases List.mem_singleton.mp h
  · exact h
  · exact h

theorem returnError_returned (t : GTask GIOError Unit) (error e : GIOError)
    (h : .error e ∈ (returnError t error).returned) :
    .error e ∈ t.returned ∨ gTaskHadError t = false ∧ e = error := by
  unfold returnError at h
  split_ifs at h with hp he
  · exact Or.inl h
  · rcases List.mem_append.mp h with h | h
    · exact Or.inl h
    · cases List.mem_singleton.mp h
      exact Or.inr ⟨Bool.eq_false_iff.mpr he,rfl⟩
  · exact Or.inl h

theorem performAll_quiet (effects : List Effect) (s : System)
    (h : effects.any Effect.isFailure = false) :
    (performAll s effects).taskData = s.taskData ∧
      ∀ e, .error e ∈ (performAll s effects).task.returned → .error e ∈ s.task.returned := by
  induction effects generalizing s with
  | nil => exact ⟨rfl,fun _ he => he⟩
  | cons effect effects ih =>
    rw [List.any_cons,Bool.or_eq_false_iff] at h
    obtain ⟨hdata,htold⟩ := ih (perform s effect) h.2
    show (performAll (perform s effect) effects).taskData = _ ∧
      ∀ e, .error e ∈ (performAll (perform s effect) effects).task.returned → _
    rw [hdata]
    cases effect with
    | taskIncrement => exact ⟨rfl,fun e he => increment_returned s.task ▸ htold e he⟩
    | taskReturnBoolean => exact ⟨rfl,fun e he => returnBoolean_returned s.task e (htold e he)⟩
    | taskReturnError error => cases h.1
    | taskSetData error => cases h.1
    | _ => exact ⟨rfl,htold⟩

theorem quiet_blamed {files : Directory} {s s' : System} (h : Blamed files s)
    (hdata : s'.taskData = s.taskData)
    (htold : ∀ e, .error e ∈ s'.task.returned → .error e ∈ s.task.returned)
    (hdel : ∀ d ∈ s.deletions, ∃ d' ∈ s'.deletions, d'.file = d.file) : Blamed files s' := by
  constructor
  · intro e he
    obtain ⟨hinvalid,d,hd,hbad⟩ := h.data e (hdata ▸ he)
    obtain ⟨d',hd',hfile⟩ := hdel d hd
    exact ⟨hinvalid,d',hd',by rwa [hfile]⟩
  · exact fun e he => hdata.trans (h.told e (htold e he))

theorem setDeletion_files (s : System) (i : ℕ) (d : Deletion) (status : Status)
    (hi : s.deletions[i]? = some d) (o : Deletion) (ho : o ∈ s.deletions) :
    ∃ d' ∈ (setDeletion s i d status).deletions, d'.file = o.file := by
  obtain ⟨j,hj⟩ := List.getElem?_of_mem ho
  by_cases hij : i = j
  · rw [← hij,hi] at hj
    cases hj
    exact ⟨_,List.mem_set (List.getElem?_eq_some_iff.mp hi).1 _,rfl⟩
  · refine ⟨o,List.mem_of_getElem? (i := j) ?_,rfl⟩
    rw [setDeletion,List.getElem?_set_ne hij]
    exact hj

theorem fileLoadCb_read (self : EpgManager) (clock : EpgClock) (file : StateFile)
    (result : LoadResult) (data : Option (List UInt8)) (h : loadedBytes result = some data) :
    (fileLoadCb self clock false file result).2.any Effect.isFailure = false ∨
      MalformedData data file ∧ ∃ before, before.any Effect.isFailure = false ∧
        (fileLoadCb self clock false file result).2 = before++(invalidData self file).2 := by
  by_cases hbad : MalformedData data file
  · rcases fileLoadCb_bytes self clock file result with ⟨_,hno,-⟩ | ⟨data',hb,hout⟩
    · rw [h] at hno
      cases hno
    · rw [h] at hb
      cases hb
      obtain ⟨hstop,before,-,hquiet,heff⟩ := loadFile_malformed self clock file data hbad
      right
      refine ⟨hbad,before,hquiet,?_⟩
      rw [hout,updateFromFile,hstop]
      exact heff
  · left
    rw [← Bool.not_eq_true,fileLoadCb_refused,refused_iff file result data h]
    exact hbad

theorem performAll_append (as bs : List Effect) (s : System) :
    performAll s (as++bs) = performAll (performAll s as) bs := List.foldl_append

theorem loadCb_blamed {files : Directory} {s : System} (h : Blamed files s) (i : ℕ) (l : Load)
    (result : LoadResult) (hread : ReadOf files l.file result) :
    Blamed files (loadCb s i l result) := by
  obtain ⟨data,hdata,hbad⟩ := hread
  unfold loadCb acted loadActs
  dsimp only
  cases he : gTaskHadError s.task with
  | true =>
    apply quiet_blamed h
    · rfl
    · intro e herr
      rcases returnError_returned s.task .failed e herr with hold | ⟨hno,-⟩
      · exact hold
      · rw [he] at hno
        cases hno
    · exact fun d hd => ⟨d,hd,rfl⟩
  | false =>
    have hout := fileLoadCb_read s.manager s.clock l.file result data hdata
    generalize fileLoadCb s.manager s.clock false l.file result = out at *
    show Blamed files (performAll { setLoad s i l .called with manager := out.1 } out.2)
    obtain ⟨hkept,hnew⟩ := performAll_deletions out.2
      { setLoad s i l .called with manager := out.1 }
    have hquietly (effects : List Effect) :=
      performAll_quiet effects { setLoad s i l .called with manager := out.1 }
    rcases hout with hquiet | ⟨hmal,before,hquiet,heff⟩
    · obtain ⟨hd,ht⟩ := hquietly out.2 hquiet
      exact quiet_blamed h hd ht (fun d hd => ⟨d,hkept d hd,rfl⟩)
    · obtain ⟨-,ht⟩ := hquietly before hquiet
      have hstarted := hnew l.file (by rw [heff]; simp [invalidData])
      have hset : (performAll { setLoad s i l .called with manager := out.1 } out.2).taskData =
          some .invalidData := by
        rw [heff,performAll_append]
        rfl
      constructor
      · intro e hsome
        rw [hset] at hsome
        cases hsome
        exact ⟨rfl,⟨l.file,.inFlight⟩,hstarted,hbad hmal⟩
      · intro e hm
        have hold : .error e ∈ s.task.returned := by
          apply ht
          rw [heff,performAll_append] at hm
          exact increment_returned _ ▸ hm
        rw [hset,(h.data e (h.told e hold)).1]

theorem fileLoadDeleteCb_passes (data error : Option GIOError)
    (h : ¬ ∃ e, error = some e ∧ e ≠ .notFound) :
    fileLoadDeleteCb data error = match data with
      | some e => .taskReturnError e
      | none => .taskReturnBoolean := by
  cases data with
  | some e => rfl
  | none =>
    cases error with
    | none => rfl
    | some e =>
      have he : e = .notFound := by
        by_contra hn
        exact h ⟨e,rfl,hn⟩
      rw [fileLoadDeleteCb,if_pos he]

theorem deleteCb_blamed {files : Directory} {s : System} (h : Blamed files s) (i : ℕ)
    (d : Deletion) (error : Option GIOError) (hi : s.deletions[i]? = some d)
    (hd : d.status = .done error) (hgood : ¬ BadDeletion d) :
    Blamed files (deleteCb s i d error) := by
  rw [badDeletion_done d error hd] at hgood
  have hkept := setDeletion_files s i d (.called error) hi
  unfold deleteCb acted deleteActs
  dsimp only
  rw [fileLoadDeleteCb_passes s.taskData error hgood]
  cases hdata : s.taskData with
  | none =>
    apply quiet_blamed h
    · rfl
    · exact fun e he => returnBoolean_returned s.task e he
    · exact hkept
  | some cause =>
    constructor
    · intro e he
      obtain ⟨hinvalid,o,ho,hbad⟩ := h.data e he
      obtain ⟨o',ho',hfile⟩ := hkept o ho
      exact ⟨hinvalid,o',ho',by rwa [hfile]⟩
    · intro e he
      show s.taskData = some e
      rcases returnError_returned s.task cause e he with hold | ⟨-,rfl⟩
      · exact h.told e hold
      · exact hdata

theorem good_result (sv : Save) (hok : SaveOk sv) (hgood : ¬ BadSave sv)
    (result : Except GIOError Unit) (hresult : sv.result = some result) :
    (reportEffects sv.forTask result).any Effect.isFailure = false := by
  cases result with
  | ok u => cases sv.forTask <;> rfl
  | error e => exact absurd (anyFailed_bad sv (result_error sv hok e hresult)) hgood

theorem saveCb_blamed {files : Directory} {s : System} (h : Blamed files s) (i : ℕ) (sv : Save)
    (result : Except GIOError Unit)
    (hquiet : (reportEffects sv.forTask result).any Effect.isFailure = false) :
    Blamed files (saveCb s i sv result) := by
  obtain ⟨hdata,htold⟩ := performAll_quiet (reportEffects sv.forTask result)
    (setReported s i sv (internalSaveStateCb s.manager result).1) hquiet
  have hdel := (saveCb_lists s i sv result).2.1
  apply quiet_blamed h hdata htold
  intro d hd
  exact ⟨d,hdel.symm ▸ hd,rfl⟩

/-- What is known of an attempt begun in a directory while the disk does what it
is asked. -/
structure Healing (files : Directory) (s : System) : Prop where
  completing : Completing s
  disk : Disk files s
  blamed : Blamed files s

theorem step_healing {files : Directory} {s s' : System} {op : Operation} (h : Healing files s)
    (ho : Operation.carriedOut op = true) (hs : step s op = some s') : Healing files s' := by
  refine ⟨step_completing h.completing hs,step_disk h.disk ho hs,?_⟩
  have hblamed := h.blamed
  cases step_cases s s' op hs with
  | timePasses clock _ => exact ⟨hblamed.data,hblamed.told⟩
  | read i l hi hf => exact ⟨hblamed.data,hblamed.told⟩
  | readFails i error l hi hf he => cases ho
  | loadCb i l result hi hl =>
    exact loadCb_blamed hblamed i l result
      (h.disk.reads l (List.mem_of_getElem? hi) result hl)
  | delete i d hi hf =>
    exact quiet_blamed hblamed rfl (fun _ he => he) (setDeletion_files s i d _ hi)
  | deleteFails i error d hi hf => cases ho
  | deleteCb i d error hi hd =>
    exact deleteCb_blamed hblamed i d error hi hd
      (h.disk.deletions d (List.mem_of_getElem? hi)).1
  | takeEffect i f sv sv' files' hi he => exact ⟨hblamed.data,hblamed.told⟩
  | fail i f error sv sv' hi he => cases ho
  | opCb i f sv sv' hi he => exact ⟨hblamed.data,hblamed.told⟩
  | saveCb i sv result hi hresult hr =>
    have hm := List.mem_of_getElem? hi
    exact saveCb_blamed hblamed i sv result
      (good_result sv (h.completing.saves sv hm).ok (h.disk.saves sv hm) result hresult)

theorem initAsync_healing (self : EpgManager) (clock : EpgClock) (files : Directory) :
    Healing files (initAsync self clock files) := by
  refine ⟨initAsync_completing self clock files,initAsync_disk self clock files,?_,?_⟩
  · intro e he
    cases he
  · intro e he
    cases he

/-- An attempt at initialisation by a new manager, with the clocks as they are
when it begins and the order in which everything then happens. -/
structure Attempt where
  clock : EpgClock
  ops : List Operation
  carriedOut : ∀ op ∈ ops, Operation.carriedOut op = true

def attempt (enabled : Bool) (files : Directory) (a : Attempt) : Option System :=
  run step a.ops (initAsync (epgManagerInit enabled) a.clock files)

def Fails (s : System) : Prop := ∃ e, .error e ∈ s.task.returned

def Ends (enabled : Bool) (P : System → Prop) (files : Directory) (a : Attempt) : Prop :=
  ∃ s, attempt enabled files a = some s ∧ Complete s ∧ P s

def again (enabled : Bool) (files : Directory) (a : Attempt) : Option Directory :=
  ((attempt enabled files a).filter (fun s => Complete s)).map System.files

theorem again_some {enabled : Bool} {files files' : Directory} {a : Attempt} :
    again enabled files a = some files' ↔
      ∃ s, attempt enabled files a = some s ∧ Complete s ∧ s.files = files' := by
  unfold again
  simp only [Option.map_eq_some_iff,Option.filter_eq_some_iff,decide_eq_true_eq,and_assoc]

theorem attempt_healing {enabled : Bool} {files : Directory} {a : Attempt} {s : System}
    (hr : attempt enabled files a = some s) : Healing files s :=
  run_invariant_along (P := fun _ op => Operation.carriedOut op = true)
    (fun _ _ _ hk ho hs => step_healing hk ho hs)
    (initAsync_healing (epgManagerInit enabled) a.clock files)
    (along_of_forall a.carriedOut _) hr

theorem complete_ends {files : Directory} {s : System} (h : Healing files s) (hc : Complete s) :
    Initialised s ↔ ¬ Fails s := by
  unfold Fails
  rw [complete_initialised h.completing hc,complete_told h.completing hc,
    error_returned h.completing.truthful]

/-- A failed attempt has put right a file which was malformed. -/
theorem failed_heals {files : Directory} {s : System} (h : Healing files s) (hc : Complete s)
    (hf : Fails s) : ∃ f ∈ malformedFiles files, f ∉ malformedFiles s.files := by
  obtain ⟨e,he⟩ := hf
  obtain ⟨-,d,hd,hbad⟩ := h.blamed.data e (h.blamed.told e he)
  refine ⟨d.file,(mem_malformedFiles files d.file).mpr hbad,?_⟩
  rw [mem_malformedFiles]
  apply (h.disk.deletions d hd).2.resolve_left
  intro hin
  have hcalled := hc.deletions d hd
  rw [hin] at hcalled
  cases hcalled

theorem failed_fewer {files : Directory} {s : System} (h : Healing files s) (hc : Complete s)
    (hf : Fails s) : (malformedFiles s.files).card < (malformedFiles files).card := by
  obtain ⟨f,hmem,hnot⟩ := failed_heals h hc hf
  apply Finset.card_lt_card
  rw [Finset.ssubset_iff_of_subset (unspoilt_subset h.disk.unspoilt)]
  exact ⟨f,hmem,hnot⟩

def Operation.instead : Operation → Operation
  | .readFails i _ => .read i
  | .deleteFails i _ => .delete i
  | .fail i f _ => .takeEffect i f
  | op => op

theorem instead_carriedOut (op : Operation) :
    Operation.carriedOut (Operation.instead op) = true := by
  cases op <;> rfl

theorem instead_steps {s s' : System} {op : Operation} (hs : step s op = some s') :
    (step s (Operation.instead op)).isSome = true := by
  cases step_cases s s' op hs with
  | readFails i error l hi hf he => simp [Operation.instead,step,hi,hf]
  | deleteFails i error d hi hf => simp [Operation.instead,step,hi,hf]
  | fail i f error sv sv' hi he =>
    obtain ⟨hf,-,-⟩ := fail_some sv sv' f error he
    simp [Operation.instead,step,hi,Save.takeEffect,hf]
  | _ => exact Option.isSome_iff_exists.mpr ⟨_,hs⟩

theorem going_on {files : Directory} {s : System} (h : Healing files s) (hc : ¬ Complete s) :
    ∃ op, Operation.carriedOut op = true ∧ Operation.acts op = true ∧
      (step s op).isSome = true := by
  obtain ⟨op,ha,hs⟩ := moves s (fun sv hm => (h.completing.saves sv hm).ok) hc
  obtain ⟨s',hs⟩ := Option.isSome_iff_exists.mp hs
  refine ⟨Operation.instead op,instead_carriedOut op,?_,instead_steps hs⟩
  cases op with
  | timePasses clock => cases ha
  | _ => rfl

theorem again_ends {enabled : Bool} {files files' : Directory} {a : Attempt}
    (hr : again enabled files a = some files') :
    Ends enabled Fails files a ∨ Ends enabled Initialised files a := by
  obtain ⟨s,hs,hc,-⟩ := again_some.mp hr
  by_cases hf : Fails s
  · exact Or.inl ⟨s,hs,hc,hf⟩
  · exact Or.inr ⟨s,hs,hc,(complete_ends (attempt_healing hs) hc).mpr hf⟩

theorem again_fewer {enabled : Bool} {files files' : Directory} {a : Attempt}
    (hf : Ends enabled Fails files a) (hr : again enabled files a = some files') :
    (malformedFiles files').card < (malformedFiles files).card := by
  obtain ⟨s,hs,hc,hfail⟩ := hf
  obtain ⟨s₁,hs₁,-,rfl⟩ := again_some.mp hr
  rw [hs] at hs₁
  cases hs₁
  exact failed_fewer (attempt_healing hs) hc hfail

/-- Whatever the files hold and in whatever order things happen, as long as the
disk does what it is asked: an attempt fails only for malformed data and leaves
no file malformed that was not; it completes after a bounded number of steps,
and has then succeeded, or failed and put a malformed file right. Of more
attempts in a row than there were malformed files, one succeeds. -/
theorem malformed_state_heals (enabled : Bool) (files : Directory) :
    (∀ a s, attempt enabled files a = some s →
      (∀ e, .error e ∈ s.task.returned → e = .invalidData) ∧
        Unspoilt files s.files ∧
        (Complete s → (Initialised s ↔ ¬ Fails s)) ∧
        (Complete s → Fails s → ∃ f ∈ malformedFiles files, f ∉ malformedFiles s.files) ∧
        (¬ Complete s → ∃ op, Operation.carriedOut op = true ∧ Operation.acts op = true ∧
          (step s op).isSome = true) ∧
        a.ops.countP Operation.acts ≤ 85) ∧
      ∀ attempts files', run (again enabled) attempts files = some files' →
        (malformedFiles files).card < attempts.length →
        Meets (again enabled) (Ends enabled Initialised) attempts files := by
  constructor
  · intro a s hr
    have h := attempt_healing hr
    refine ⟨?_,h.disk.unspoilt,complete_ends h,failed_heals h,going_on h,?_⟩
    · exact fun e he => (h.blamed.data e (h.blamed.told e he)).1
    · exact acts_bounded (epgManagerInit enabled) a.clock files a.ops s hr
  · intro attempts files' hr hlong
    rcases along_or_meets (fun _ _ _ hs => again_ends hs) hr with hfail | hmeet
    · have hdescent := run_descent (m := fun files => (malformedFiles files).card)
        (fun _ _ _ hf hs => again_fewer hf hs) hfail hr
      omega
    · exact hmeet

def halfCodeAttempts : List Attempt :=
  [⟨⟨10, 1000, true⟩, halfCodeRun, by decide⟩,
    ⟨⟨20, 1010, true⟩, [.read 0, .read 1, .loadCb 1, .read 2, .loadCb 2, .loadCb 0, .read 4,
      .read 3, .loadCb 4, .loadCb 3], by decide⟩]

theorem malformed_state_heals_example :
    (malformedFiles halfCode).card = 1 ∧
      Meets (again true) (Ends true Initialised) halfCodeAttempts halfCode := by
  have hcard : (malformedFiles halfCode).card = 1 := by decide +kernel
  have hruns : (run (again true) halfCodeAttempts halfCode).isSome = true := by decide +kernel
  obtain ⟨files',hr⟩ := Option.isSome_iff_exists.mp hruns
  refine ⟨hcard,(malformed_state_heals true halfCode).2 halfCodeAttempts files' hr ?_⟩
  rw [hcard]
  decide

end EosPayg.SelfHealing
