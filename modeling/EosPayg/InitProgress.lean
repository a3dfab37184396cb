import EosPayg.InitTask
import EosPayg.SaveProgress

/-!
# Initialisation comes to an end

Every step but the passing of time uses up some of a fixed amount of work, and
as long as an operation is left there is a step to take.
-/

set_option autoImplicit false

namespace EosPayg.InitProgress
open EosPayg.ManagerState EosPayg.ManagerFiles EosPayg.SaveQueue EosPayg.LoadCallback
  EosPayg.RecordList EosPayg.Initialisation
open EosPayg.ExpiryTimer (fileLoadCb_bytes deducedSpan deduceExpiryTime_span)
open EosPayg.SaveProgress (save_moves)
open EosPayg.MultiTask (gTaskHadError)

def Operation.acts : Operation → Bool
  | .timePasses _ => false
  | _ => true

def callbackWork : StateFile → ℕ
  | .clockTime => 29
  | _ => 16

def Effect.work : Effect → ℕ
  | .loadContents file => callbackWork file+2
  | .deleteFile _ => 2
  | .save _ _ => 7
  | _ => 0

def works (effects : List Effect) : ℕ := (effects.map Effect.work).sum

def Status.work : Status → ℕ
  | .inFlight => 2
  | .done _ => 1
  | .called _ => 0

def Load.work (l : Load) : ℕ :=
  match l.status with
  | .inFlight => callbackWork l.file+2
  | .read _ => callbackWork l.file+1
  | .called => 0

def Save.work (sv : Save) : ℕ :=
  (SaveFile.all.map (fun f => Status.work (sv.status f))).sum+(!sv.reported).toNat

/-- The steps that the operations started may still take, and those that their
callbacks may start. -/
def work (s : System) : ℕ :=
  (s.loads.map Load.work).sum+(s.deletions.map (fun d => Status.work d.status)).sum+
    (s.saves.map Save.work).sum

@[simp]
theorem works_append (as bs : List Effect) : works (as++bs) = works as+works bs := by
  simp [works]

theorem works_outside (effects : List Effect) (h : effects.all Effect.outside = true) :
    works effects = 0 := by
  induction effects with
  | nil => rfl
  | cons e es ih =>
    rw [List.all_cons,Bool.and_eq_true] at h
    have he : Effect.work e = 0 := by
      cases e <;> first | rfl | cases h.1
    show Effect.work e+works es = 0
    rw [he,ih h.2]

theorem setExpiryTime_works (self : EpgManager) (clock : EpgClock) (nowSecs spanSecs : UInt64) :
    works (setExpiryTime self clock true true nowSecs spanSecs).2 ≤ 7 := by
  rcases setExpiryTime_starts self clock nowSecs spanSecs with ⟨before,hb,he⟩
  rw [he,works_append,works_outside before hb]
  split_ifs
  · exact le_rfl
  · exact Nat.zero_le 7

theorem deduceExpiryTime_works (self : EpgManager) (clock : EpgClock) (file : StateFile) :
    works (deduceExpiryTime self clock file).2 ≤ 7 := by
  rw [deduceExpiryTime_span]
  cases deducedSpan self clock file with
  | none => exact Nat.zero_le 7
  | some span => exact setExpiryTime_works self clock clock.time span

theorem invalidData_works (self : EpgManager) (file : StateFile) :
    works (invalidData self file).2 = 2 := rfl

theorem loadFile_works (self : EpgManager) (clock : EpgClock) (file : StateFile)
    (data : Option (List UInt8)) :
    works (loadFile self clock file data).2.2+7 ≤ callbackWork file := by
  have hset := setExpiryTime_works self clock clock.time
  have hbad := invalidData_works self
  cases file with
  | clockTime =>
    have hchild : works [.taskIncrement,
        .loadContents (if data = none then .expiryTime else .expirySeconds)] = 18 := by
      split_ifs <;> rfl
    show works (loadWallclockTime self data).2.2+7 ≤ 29
    unfold loadWallclockTime
    by_cases h0 : (data.getD []).length = 0
    · rw [if_pos h0,hchild]
      decide
    · rw [if_neg h0]
      by_cases h8 : (data.getD []).length ≠ 8
      · rw [if_pos h8,andThen_effects,works_append,hchild,hbad]
        decide
      · rw [if_neg h8,hchild]
        decide
  | expiryTime =>
    show works (loadExpiryTime self clock data).2.2+7 ≤ 16
    unfold loadExpiryTime
    by_cases h0 : (data.getD []).length = 0
    · rw [if_pos h0]
      exact (Nat.add_le_add_right (hset 0) 7).trans (by decide)
    · rw [if_neg h0]
      by_cases h8 : (data.getD []).length ≠ 8
      · rw [if_pos h8,hbad]
        decide
      · rw [if_neg h8,andThen_effects,works_append]
        exact Nat.add_le_add_right (Nat.add_le_add_right (hset _) 2) 7
  | expirySeconds =>
    show works (loadExpirySeconds self clock data).2.2+7 ≤ 16
    unfold loadExpirySeconds
    by_cases h0 : (data.getD []).length = 0
    · rw [if_pos h0]
      exact (Nat.add_le_add_right (hset 0) 7).trans (by decide)
    · rw [if_neg h0]
      by_cases h8 : (data.getD []).length ≠ 8
      · rw [if_pos h8,hbad]
        decide
      · rw [if_neg h8]
        show 0+7 ≤ 16
        decide
  | usedCodes =>
    show works (loadUsedCodes self data).2.2+7 ≤ 16
    unfold loadUsedCodes
    cases usedCodesOfBytes (data.getD []) with
    | none =>
      rw [hbad]
      decide
    | some codes =>
      show 0+7 ≤ 16
      decide
  | key =>
    cases data <;>
      show 0+7 ≤ 16 <;>
      decide
  | accountId =>
    cases data <;>
      show 0+7 ≤ 16 <;>
      decide

theorem fileLoadCb_works (self : EpgManager) (clock : EpgClock) (hadError : Bool)
    (file : StateFile) (result : LoadResult) :
    works (fileLoadCb self clock hadError file result).2 ≤ callbackWork file := by
  cases hadError with
  | true => exact Nat.zero_le _
  | false =>
    rcases fileLoadCb_bytes self clock file result with ⟨e,-,hout⟩ | ⟨data,-,hout⟩
    · rw [hout]
      exact Nat.zero_le _
    · have hl := loadFile_works self clock file data
      have hd := deduceExpiryTime_works (loadFile self clock file data).2.1 clock file
      rw [hout,updateFromFile]
      by_cases hok : (loadFile self clock file data).1 = true
      · simp only [if_pos hok,andThen_effects,works_append]
        show _+_+0 ≤ _
        omega
      · simp only [if_neg hok]
        omega

theorem perform_work (s : System) (e : Effect) : work (perform s e) = work s+Effect.work e := by
  cases e with
  | loadContents file =>
    simp only [work,perform,List.map_append,List.map_singleton,List.sum_append,
      List.sum_singleton]
    show _+(callbackWork file+2)+_+_ = _+_+_+(callbackWork file+2)
    omega
  | deleteFile file =>
    simp only [work,perform,List.map_append,List.map_singleton,List.sum_append,
      List.sum_singleton]
    show _+(_+2)+_ = _+_+_+2
    omega
  | save saved forTask =>
    simp only [work,perform,List.map_append,List.map_singleton,List.sum_append,
      List.sum_singleton]
    show _+_+(_+7) = _+_+_+7
    omega
  | _ => rfl

theorem performAll_work (effects : List Effect) (s : System) :
    work (performAll s effects) = work s+works effects := by
  induction effects generalizing s with
  | nil => rfl
  | cons e es ih =>
    show work (performAll (perform s e) es) = work s+(Effect.work e+works es)
    rw [ih,perform_work,Nat.add_assoc]

theorem setLoad_work (s : System) (i : ℕ) (l : Load) (status : LoadStatus)
    (hi : s.loads[i]? = some l) :
    work (setLoad s i l status)+Load.work l = work s+Load.work { l with status := status } := by
  have := sum_exchange s.loads i l { l with status := status } Load.work hi
  simp only [work,setLoad]
  omega

theorem setDeletion_work (s : System) (i : ℕ) (d : Deletion) (status : Status)
    (hi : s.deletions[i]? = some d) :
    work (setDeletion s i d status)+Status.work d.status = work s+Status.work status := by
  have := sum_exchange s.deletions i d { d with status := status }
    (fun d => Status.work d.status) hi
  simp only [work,setDeletion] at this ⊢
  omega

theorem setSave_work (s : System) (i : ℕ) (sv sv' : Save) (hi : s.saves[i]? = some sv) :
    work { s with saves := s.saves.set i sv' }+Save.work sv = work s+Save.work sv' := by
  have := sum_exchange s.saves i sv sv' Save.work hi
  simp only [work]
  omega

theorem setStatus_work (sv : Save) (f : SaveFile) (st : Status) (t : SaveTask) :
    Save.work { sv.setStatus f st with task := t }+Status.work (sv.status f) =
      Save.work sv+Status.work st := by
  cases f <;>
    simp only [Save.work,Save.setStatus,SaveFile.all,List.map_cons,List.map_nil,List.sum_cons,
      List.sum_nil,Function.update,reduceCtorEq,reduceDIte] <;>
    omega

theorem moved_work (s : System) (i : ℕ) (sv : Save) (f : SaveFile) (st : Status) (t : SaveTask)
    (hi : s.saves[i]? = some sv) :
    work { s with saves := s.saves.set i { sv.setStatus f st with task := t } }+
      Status.work (sv.status f) = work s+Status.work st := by
  have h1 := setSave_work s i sv { sv.setStatus f st with task := t } hi
  have h2 := setStatus_work sv f st t
  omega

theorem fileLoadDeleteCb_works (taskData error : Option GIOError) :
    works [fileLoadDeleteCb taskData error] = 0 := by
  rcases InitTask.fileLoadDeleteCb_cases taskData error with he | ⟨e,he⟩ <;> rw [he] <;> rfl

theorem reportEffects_works (forTask : Bool) (result : Except GIOError Unit) :
    works (reportEffects forTask result) = 0 := by
  cases forTask
  · rfl
  · cases result <;> rfl

/-- Every step but the passing of time uses up some work. -/
theorem step_work {s s' : System} {op : Operation} (hs : step s op = some s') :
    work s'+(if Operation.acts op then 1 else 0) ≤ work s := by
  cases step_cases s s' op hs with
  | timePasses clock _ => exact le_rfl
  | read i l hi hf =>
    have := setLoad_work s i l (.read (loadContents s.files l.file)) hi
    simp only [Load.work,hf] at this
    show _+1 ≤ _
    omega
  | readFails i error l hi hf he =>
    have := setLoad_work s i l (.read (.failed error)) hi
    simp only [Load.work,hf] at this
    show _+1 ≤ _
    omega
  | loadCb i l result hi hl =>
    have hcb := fileLoadCb_works s.manager s.clock (gTaskHadError s.task) l.file result
    have := setLoad_work s i l .called hi
    simp only [Load.work,hl] at this
    show work (performAll _
      (fileLoadCb s.manager s.clock (gTaskHadError s.task) l.file result).2)+1 ≤ _
    rw [performAll_work]
    show work (setLoad s i l .called)+_+1 ≤ _
    omega
  | delete i d hi hf =>
    have := setDeletion_work s i d (.done (FileOp.run (.delete d.file) s.files).1) hi
    simp only [Status.work,hf] at this
    show work (setDeletion s i d _)+1 ≤ _
    omega
  | deleteFails i error d hi hf =>
    have := setDeletion_work s i d (.done (some error)) hi
    simp only [Status.work,hf] at this
    show _+1 ≤ _
    omega
  | deleteCb i d error hi hd =>
    have := setDeletion_work s i d (.called error) hi
    simp only [Status.work,hd] at this
    show work (performAll (setDeletion s i d (.called error))
      [fileLoadDeleteCb s.taskData error])+1 ≤ _
    rw [performAll_work,fileLoadDeleteCb_works]
    omega
  | takeEffect i f sv sv' files' hi he =>
    rcases takeEffect_some sv sv' f s.files files' he with ⟨hf,-,rfl⟩
    have := moved_work s i sv f (.done (FileOp.run (saveOp sv.saved f) s.files).1) sv.task hi
    rw [hf] at this
    exact Nat.le_of_succ_le_succ this.le
  | fail i f error sv sv' hi he =>
    rcases fail_some sv sv' f error he with ⟨hf,-,rfl⟩
    have := moved_work s i sv f (.done (some error)) sv.task hi
    rw [hf] at this
    exact Nat.le_of_succ_le_succ this.le
  | opCb i f sv sv' hi he =>
    rcases opCb_some sv sv' f he with ⟨error,hf,rfl⟩
    have := moved_work s i sv f (.called error) (saveOpCb (saveOp sv.saved f) sv.task error) hi
    rw [hf] at this
    exact this.le
  | saveCb i sv result hi hresult hr =>
    have h1 := setSave_work s i sv { sv with reported := true } hi
    have h2 : Save.work { sv with reported := true }+1 = Save.work sv := by
      simp only [Save.work,hr]
      rfl
    show work (performAll _ (reportEffects sv.forTask result))+1 ≤ _
    rw [performAll_work,reportEffects_works]
    show work { s with saves := s.saves.set i { sv with reported := true } }+0+1 ≤ _
    omega

structure Complete (s : System) : Prop where
  loads : ∀ l ∈ s.loads, l.isCalled = true
  deletions : ∀ d ∈ s.deletions, d.status.isCalled = true
  saves : ∀ sv ∈ s.saves, sv.reported = true

theorem complete_iff_all (s : System) :
    (s.loads.all Load.isCalled && s.deletions.all (fun d => d.status.isCalled) &&
      s.saves.all Save.reported) = true ↔ Complete s := by
  rw [Bool.and_eq_true,Bool.and_eq_true,List.all_eq_true,List.all_eq_true,List.all_eq_true]
  exact ⟨fun h => ⟨h.1.1,h.1.2,h.2⟩,fun h => ⟨⟨h.loads,h.deletions⟩,h.saves⟩⟩

instance (s : System) : Decidable (Complete s) := decidable_of_iff _ (complete_iff_all s)

theorem complete_iff (s : System) (h : ∀ sv ∈ s.saves, sv.forTask = true) :
    Complete s ↔ outstanding s = 0 := by
  have hz : outstanding s = 0 ↔ s.loads.countP (fun l => !l.isCalled) = 0 ∧
      s.deletions.countP (fun d => !d.status.isCalled) = 0 ∧
      s.saves.countP (fun sv => sv.forTask && !sv.reported) = 0 := by
    unfold outstanding
    omega
  rw [hz,List.countP_eq_zero,List.countP_eq_zero,List.countP_eq_zero]
  constructor
  · rintro ⟨hl,hd,hs⟩
    exact ⟨fun l hm => by simp [hl l hm],fun d hm => by simp [hd d hm],
      fun sv hm => by simp [hs sv hm]⟩
  · rintro ⟨hl,hd,hs⟩
    exact ⟨fun l hm => by simpa using hl l hm,fun d hm => by simpa using hd d hm,
      fun sv hm => by simpa [h sv hm] using hs sv hm⟩

def Moves (s : System) : Prop := ∃ op, Operation.acts op = true ∧ (step s op).isSome = true

theorem load_moves (s : System) (l : Load) (hl : l ∈ s.loads) (hc : l.isCalled = false) :
    Moves s := by
  obtain ⟨i,hi⟩ := List.getElem?_of_mem hl
  cases hst : l.status with
  | inFlight => exact ⟨.read i,rfl,by simp [step,hi,hst]⟩
  | read result => exact ⟨.loadCb i,rfl,by simp [step,hi,hst]⟩
  | called => simp [Load.isCalled,hst] at hc

theorem deletion_moves (s : System) (d : Deletion) (hd : d ∈ s.deletions)
    (hc : d.status.isCalled = false) : Moves s := by
  obtain ⟨i,hi⟩ := List.getElem?_of_mem hd
  cases hst : d.status with
  | inFlight => exact ⟨.delete i,rfl,by simp [step,hi,hst]⟩
  | done error => exact ⟨.deleteCb i,rfl,by simp [step,hi,hst]⟩
  | called error => simp [Status.isCalled,hst] at hc

theorem unreported_moves (s : System) (sv : Save) (hm : sv ∈ s.saves) (hok : SaveOk sv)
    (hr : sv.reported = false) : Moves s := by
  obtain ⟨i,hi⟩ := List.getElem?_of_mem hm
  rcases save_moves sv hok with ⟨f,hf⟩ | ⟨f,error,hf⟩ | ⟨result,hresult⟩
  · exact ⟨.takeEffect i f,rfl,by simp [step,hi,Save.takeEffect,hf]⟩
  · exact ⟨.opCb i f,rfl,by simp [step,hi,Save.opCb,hf]⟩
  · exact ⟨.saveCb i,rfl,by simp [step,hi,hresult,hr]⟩

/-- Initialisation is never stuck. -/
theorem moves (s : System) (hok : ∀ sv ∈ s.saves, SaveOk sv) (h : ¬ Complete s) : Moves s := by
  by_contra hno
  apply h
  constructor
  · intro l hl
    by_contra hc
    exact hno (load_moves s l hl (by simpa using hc))
  · intro d hd
    by_contra hc
    exact hno (deletion_moves s d hd (by simpa using hc))
  · intro sv hm
    by_contra hr
    exact hno (unreported_moves s sv hm (hok sv hm) (by simpa using hr))

end EosPayg.InitProgress
