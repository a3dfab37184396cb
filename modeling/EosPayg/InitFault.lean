import EosPayg.InitProgress

/-!
# What makes initialisation fail

A file that is read may be refused, and a deletion or an operation of a save
may fail. Until the task is told of such a fault, it is on record in what has
been read or carried out, and nothing else makes the task fail.
-/

set_option autoImplicit false

namespace EosPayg.InitFault
open EosPayg.PaygCodes EosPayg.ManagerState EosPayg.ManagerFiles EosPayg.SaveQueue
  EosPayg.SaveProgress EosPayg.LoadCallback EosPayg.GuardedRun EosPayg.RecordList
  EosPayg.Initialisation EosPayg.InitTask EosPayg.InitProgress
open EosPayg.MultiTask (gTaskHadError increment returnBoolean returnError)
open EosPayg.ExpiryTimer (fileLoadCb_bytes)
open EosPayg.Shutdown (internalSaveStateCb)

def PeriodUndefined (data : List UInt8) : Prop :=
  ∃ i, ∃ period ∈ data[2*i+1]?, ∃ error, epcPeriodValidate period.toNat = .error error

def Malformed (data : List UInt8) : StateFile → Prop
  | .clockTime => data.length ≠ 0 ∧ data.length ≠ 8
  | .expirySeconds => data.length ≠ 0 ∧ data.length ≠ 8
  | .expiryTime => data.length ≠ 0 ∧ data.length ≠ 8
  | .usedCodes => data.length % 2 = 1 ∨ PeriodUndefined data
  | .key => False
  | .accountId => False

def Refused (file : StateFile) : LoadResult → Prop
  | .contents data => Malformed data file
  | .failed error => error ≠ .notFound

/-- A file is found unreadable or malformed, a deletion fails otherwise than
because the file is gone, or an operation of a save fails. -/
def Fault (s : System) : Operation → Prop
  | .read i => ∃ l ∈ s.loads[i]?, Refused l.file (loadContents s.files l.file)
  | .readFails _ _ => True
  | .deleteFails _ error => error ≠ .notFound
  | .fail _ _ _ => True
  | _ => False

theorem periodUndefined_cons (counter period : UInt8) (rest : List UInt8) :
    PeriodUndefined (counter::period::rest) ↔
      (∃ error, epcPeriodValidate period.toNat = .error error) ∨ PeriodUndefined rest := by
  constructor
  · rintro ⟨i,p,hp,he⟩
    cases i with
    | zero =>
      cases hp
      exact Or.inl he
    | succ i => exact Or.inr ⟨i,p,hp,he⟩
  · rintro (he | ⟨i,p,hp,he⟩)
    · exact ⟨0,period,rfl,he⟩
    · exact ⟨i+1,p,hp,he⟩

theorem usedCodesOfBytes_none_iff (data : List UInt8) :
    usedCodesOfBytes data = none ↔ Malformed data .usedCodes := by
  show _ ↔ data.length % 2 = 1 ∨ PeriodUndefined data
  induction data using usedCodesOfBytes.induct with
  | case1 =>
    refine iff_of_false (Option.some_ne_none _) ?_
    rintro (h | ⟨i,p,hp,-⟩)
    · cases h
    · cases hp
  | case2 b => exact iff_of_true rfl (Or.inl rfl)
  | case3 counter period rest e he =>
    rw [periodUndefined_cons,usedCodesOfBytes,he]
    exact iff_of_true rfl (Or.inr (Or.inl ⟨e,rfl⟩))
  | case4 counter period rest p hp ih =>
    have hlen : (counter::period::rest).length % 2 = rest.length % 2 := by
      rw [List.length_cons,List.length_cons]
      omega
    rw [periodUndefined_cons,usedCodesOfBytes,hp,Option.map_eq_none_iff,ih,hlen]
    simp

def MalformedData (data : Option (List UInt8)) (file : StateFile) : Prop :=
  ∃ bytes ∈ data, Malformed bytes file

theorem wordFile_malformed (data : Option (List UInt8)) (file : StateFile)
    (hf : ∀ bytes, Malformed bytes file = (bytes.length ≠ 0 ∧ bytes.length ≠ 8)) :
    MalformedData data file ↔ (data.getD []).length ≠ 0 ∧ (data.getD []).length ≠ 8 := by
  cases data with
  | none => simp [MalformedData]
  | some bytes => simp [MalformedData,hf]

theorem usedCodes_malformed (data : Option (List UInt8)) :
    MalformedData data .usedCodes ↔ usedCodesOfBytes (data.getD []) = none := by
  cases data with
  | none => exact iff_of_false nofun nofun
  | some bytes =>
    rw [Option.getD_some,usedCodesOfBytes_none_iff]
    simp [MalformedData]

theorem loadFile_malformed (self : EpgManager) (clock : EpgClock) (file : StateFile)
    (data : Option (List UInt8)) (h : MalformedData data file) :
    (loadFile self clock file data).1 = false ∧ ∃ before, Balanced before ∧
      before.any Effect.isFailure = false ∧
      (loadFile self clock file data).2.2 = before++(invalidData self file).2 := by
  cases file with
  | clockTime =>
    rw [wordFile_malformed data .clockTime (fun _ => rfl)] at h
    show (loadWallclockTime self data).1 = false ∧ ∃ before, Balanced before ∧
      before.any Effect.isFailure = false ∧ (loadWallclockTime self data).2.2 = _
    rw [loadWallclockTime,if_neg h.1,if_pos h.2]
    exact ⟨rfl,_,balanced_start _ rfl,rfl,rfl⟩
  | expiryTime =>
    rw [wordFile_malformed data .expiryTime (fun _ => rfl)] at h
    show (loadExpiryTime self clock data).1 = false ∧ ∃ before, Balanced before ∧
      before.any Effect.isFailure = false ∧ (loadExpiryTime self clock data).2.2 = _
    rw [loadExpiryTime,if_neg h.1,if_pos h.2]
    exact ⟨rfl,[],balanced_nil,rfl,rfl⟩
  | expirySeconds =>
    rw [wordFile_malformed data .expirySeconds (fun _ => rfl)] at h
    show (loadExpirySeconds self clock data).1 = false ∧ ∃ before, Balanced before ∧
      before.any Effect.isFailure = false ∧ (loadExpirySeconds self clock data).2.2 = _
    rw [loadExpirySeconds,if_neg h.1,if_pos h.2]
    exact ⟨rfl,[],balanced_nil,rfl,rfl⟩
  | usedCodes =>
    rw [usedCodes_malformed] at h
    show (loadUsedCodes self data).1 = false ∧ ∃ before, Balanced before ∧
      before.any Effect.isFailure = false ∧ (loadUsedCodes self data).2.2 = _
    rw [loadUsedCodes,h]
    exact ⟨rfl,[],balanced_nil,rfl,rfl⟩
  | key => simp [MalformedData,Malformed] at h
  | accountId => simp [MalformedData,Malformed] at h

theorem loadFile_formed (self : EpgManager) (clock : EpgClock) (file : StateFile)
    (data : Option (List UInt8)) (h : ¬ MalformedData data file) :
    (loadFile self clock file data).1 = true ∧
      (loadFile self clock file data).2.2.any Effect.isFailure = false := by
  have hset := setExpiryTime_noFailure self clock true true clock.time
  cases file with
  | clockTime =>
    rw [wordFile_malformed data .clockTime (fun _ => rfl)] at h
    show (loadWallclockTime self data).1 = true ∧
      (loadWallclockTime self data).2.2.any Effect.isFailure = false
    unfold loadWallclockTime
    by_cases h0 : (data.getD []).length = 0
    · rw [if_pos h0]
      exact ⟨rfl,rfl⟩
    · rw [if_neg h0,if_neg (fun h8 => h ⟨h0,h8⟩)]
      exact ⟨rfl,rfl⟩
  | expiryTime =>
    rw [wordFile_malformed data .expiryTime (fun _ => rfl)] at h
    show (loadExpiryTime self clock data).1 = true ∧
      (loadExpiryTime self clock data).2.2.any Effect.isFailure = false
    unfold loadExpiryTime
    by_cases h0 : (data.getD []).length = 0
    · rw [if_pos h0]
      exact ⟨rfl,hset 0⟩
    · rw [if_neg h0,if_neg (fun h8 => h ⟨h0,h8⟩)]
      refine ⟨rfl,?_⟩
      rw [andThen_effects,List.any_append,hset]
      rfl
  | expirySeconds =>
    rw [wordFile_malformed data .expirySeconds (fun _ => rfl)] at h
    show (loadExpirySeconds self clock data).1 = true ∧
      (loadExpirySeconds self clock data).2.2.any Effect.isFailure = false
    unfold loadExpirySeconds
    by_cases h0 : (data.getD []).length = 0
    · rw [if_pos h0]
      exact ⟨rfl,hset 0⟩
    · rw [if_neg h0,if_neg (fun h8 => h ⟨h0,h8⟩)]
      exact ⟨rfl,rfl⟩
  | usedCodes =>
    rw [usedCodes_malformed,← ne_eq,Option.ne_none_iff_exists'] at h
    rcases h with ⟨codes,hcodes⟩
    show (loadUsedCodes self data).1 = true ∧
      (loadUsedCodes self data).2.2.any Effect.isFailure = false
    rw [loadUsedCodes,hcodes]
    exact ⟨rfl,rfl⟩
  | key => cases data <;> exact ⟨rfl,rfl⟩
  | accountId => cases data <;> exact ⟨rfl,rfl⟩

theorem refused_iff (file : StateFile) (result : LoadResult) (data : Option (List UInt8))
    (h : ExpiryTimer.loadedBytes result = some data) :
    Refused file result ↔ MalformedData data file := by
  cases result with
  | contents bytes =>
    cases h
    simp [Refused,MalformedData]
  | failed error =>
    simp only [ExpiryTimer.loadedBytes] at h
    split_ifs at h with he
    cases h
    simp [Refused,MalformedData,he]

/-- The callback tells the task of a failure exactly when it refuses the file. -/
theorem fileLoadCb_refused (self : EpgManager) (clock : EpgClock) (file : StateFile)
    (result : LoadResult) :
    (fileLoadCb self clock false file result).2.any Effect.isFailure = true ↔
      Refused file result := by
  rcases fileLoadCb_bytes self clock file result with ⟨e,hb,hout⟩ | ⟨data,hb,hout⟩
  · rw [hout]
    cases result with
    | contents bytes => cases hb
    | failed error =>
      refine iff_of_true rfl ?_
      rintro rfl
      cases hb
  · rw [hout,refused_iff file result data hb,updateFromFile]
    by_cases h : MalformedData data file
    · obtain ⟨hstop,before,-,-,heff⟩ := loadFile_malformed self clock file data h
      rw [hstop]
      refine iff_of_true ?_ h
      show (loadFile self clock file data).2.2.any Effect.isFailure = true
      rw [heff,List.any_append]
      exact Bool.or_true _
    · obtain ⟨hgo,heff⟩ := loadFile_formed self clock file data h
      have hd := deduceExpiryTime_noFailure (loadFile self clock file data).2.1 clock file
      rw [hgo]
      refine iff_of_false ?_ h
      show ¬ (((loadFile self clock file data).2.2++
        (deduceExpiryTime (loadFile self clock file data).2.1 clock file).2)++
          [Effect.taskReturnBoolean]).any Effect.isFailure = true
      rw [List.any_append,List.any_append,heff,hd]
      exact Bool.false_ne_true

theorem no_setData (effects : List Effect) (h : effects.any Effect.isFailure = false)
    (error : GIOError) : .taskSetData error ∉ effects := by
  intro hm
  exact List.any_eq_false.mp h _ hm rfl

theorem fileLoadCb_left (self : EpgManager) (clock : EpgClock) (hadError : Bool)
    (file : StateFile) (result : LoadResult) :
    run spend (fileLoadCb self clock hadError file result).2 1 = some 0 ∧
        (∀ error, .taskSetData error ∉ (fileLoadCb self clock hadError file result).2) ∨
      run spend (fileLoadCb self clock hadError file result).2 1 = some 1 ∧
        ∃ before, (fileLoadCb self clock hadError file result).2 =
          before++(invalidData self file).2 := by
  cases hadError with
  | true => exact Or.inl ⟨rfl,by simp [fileLoadCb]⟩
  | false =>
    rcases fileLoadCb_bytes self clock file result with ⟨e,-,hout⟩ | ⟨data,-,hout⟩
    · rw [hout]
      exact Or.inl ⟨rfl,by simp⟩
    · rw [hout,updateFromFile]
      by_cases h : MalformedData data file
      · obtain ⟨hstop,before,hb,-,heff⟩ := loadFile_malformed self clock file data h
        rw [hstop]
        right
        show run spend (loadFile self clock file data).2.2 1 = some 1 ∧
          ∃ before, (loadFile self clock file data).2.2 = _
        rw [heff,run_append,hb 1 Nat.one_pos]
        exact ⟨rfl,before,rfl⟩
      · obtain ⟨hgo,heff⟩ := loadFile_formed self clock file data h
        have hl := (loadFile_loads self clock file data).asks.balanced
        have hd := (deduceExpiryTime_asks self clock file data).1.balanced
        have hd' := deduceExpiryTime_noFailure (loadFile self clock file data).2.1 clock file
        rw [hgo]
        left
        show run spend (((loadFile self clock file data).2.2++
            (deduceExpiryTime (loadFile self clock file data).2.1 clock file).2)++
              [.taskReturnBoolean]) 1 = some 0 ∧
          ∀ error, .taskSetData error ∉ ((loadFile self clock file data).2.2++
            (deduceExpiryTime (loadFile self clock file data).2.1 clock file).2)++
              [.taskReturnBoolean]
        constructor
        · rw [run_append,balanced_append hl hd 1 Nat.one_pos]
          rfl
        · intro error hm
          simp only [List.mem_append,List.mem_singleton,reduceCtorEq,or_false] at hm
          exact hm.elim (no_setData _ heff error) (no_setData _ hd' error)

def BadLoad (l : Load) : Prop := ∃ result, l.status = .read result ∧ Refused l.file result

def BadDeletion (d : Deletion) : Prop := ∃ error, d.status = .done (some error) ∧ error ≠ .notFound

def Status.bad (op : FileOp) : Status → Bool
  | .inFlight => false
  | .done error => !succeeded op error
  | .called error => !succeeded op error

def BadSave (sv : Save) : Prop := ∃ f, Status.bad (saveOp sv.saved f) (sv.status f) = true

def Told (s : System) : Prop := s.task.errorReturned = true ∨ s.taskData ≠ none

def Faulted (s : System) : Prop :=
  Told s ∨ (∃ l ∈ s.loads, BadLoad l) ∨ (∃ d ∈ s.deletions, BadDeletion d) ∨
    ∃ sv ∈ s.saves, BadSave sv

theorem exists_append_good {α : Type} {p : α → Prop} (as : List α) (b : α) (hb : ¬ p b) :
    (∃ a ∈ as++[b], p a) ↔ ∃ a ∈ as, p a := by
  simp [List.mem_append,or_and_right,exists_or,hb]

theorem perform_told {s : System} {e : Effect} (hg : Guard s.task e)
    (hl : s.task.cancelled = false) :
    Told (perform s e) ↔ Told s ∨ Effect.isFailure e = true := by
  cases e with
  | taskIncrement =>
    have ht : (increment s.task).errorReturned = s.task.errorReturned := by
      unfold increment
      split_ifs <;> rfl
    simp only [Told,perform,ht,Effect.isFailure,Bool.false_eq_true,or_false]
  | taskReturnBoolean =>
    have ht := (returnBoolean_task s.task hg hl).2.2.1
    simp only [Told,perform,ht,Effect.isFailure,Bool.false_eq_true,or_false]
  | taskReturnError error =>
    have ht := (returnError_task s.task error hg hl).2.2.1
    exact iff_of_true (Or.inl ht) (Or.inr rfl)
  | taskSetData error => exact iff_of_true (Or.inr (Option.some_ne_none _)) (Or.inr rfl)
  | _ => simp only [Told,Effect.isFailure,Bool.false_eq_true,or_false,perform]

theorem perform_fresh (s : System) (e : Effect) :
    ((∃ l ∈ (perform s e).loads, BadLoad l) ∨ (∃ d ∈ (perform s e).deletions, BadDeletion d) ∨
        ∃ sv ∈ (perform s e).saves, BadSave sv) ↔
      (∃ l ∈ s.loads, BadLoad l) ∨ (∃ d ∈ s.deletions, BadDeletion d) ∨
        ∃ sv ∈ s.saves, BadSave sv := by
  cases e with
  | loadContents file =>
    have hn : ¬ BadLoad ⟨file,.inFlight⟩ := by
      rintro ⟨result,h,-⟩
      cases h
    simp only [perform,exists_append_good _ _ hn]
  | deleteFile file =>
    have hn : ¬ BadDeletion ⟨file,.inFlight⟩ := by
      rintro ⟨error,h,-⟩
      cases h
    simp only [perform,exists_append_good _ _ hn]
  | save saved forTask =>
    have hn : ¬ BadSave (saveStateAsync saved s.clock forTask false) := by
      rintro ⟨f,h⟩
      cases h
    simp only [perform,exists_append_good _ _ hn]
  | _ => exact Iff.rfl

theorem perform_faulted {s : System} {e : Effect} (hg : Guard s.task e)
    (hl : s.task.cancelled = false) :
    Faulted (perform s e) ↔ Faulted s ∨ Effect.isFailure e = true := by
  unfold Faulted
  rw [perform_told hg hl,perform_fresh,or_right_comm]

theorem perform_live (s : System) (e : Effect) :
    (perform s e).task.cancelled = s.task.cancelled := by
  cases e with
  | taskIncrement =>
    show (increment s.task).cancelled = _
    unfold increment
    split_ifs <;> rfl
  | taskReturnBoolean =>
    show (returnBoolean s.task true).cancelled = _
    unfold returnBoolean
    split_ifs <;> rfl
  | taskReturnError error =>
    show (returnError s.task error).cancelled = _
    unfold returnError
    split_ifs <;> rfl
  | _ => rfl

theorem performAll_faulted (effects : List Effect) (s : System) (hg : Guarded s effects)
    (hl : s.task.cancelled = false) :
    Faulted (performAll s effects) ↔ Faulted s ∨ effects.any Effect.isFailure = true := by
  induction effects generalizing s with
  | nil => simp [performAll]
  | cons e es ih =>
    have hrest := ih (perform s e) hg.2 ((perform_live s e).trans hl)
    show Faulted (performAll (perform s e) es) ↔ _
    rw [hrest,perform_faulted hg.1 hl,List.any_cons,Bool.or_eq_true,or_assoc]

theorem or_exchange {t a a' d p q : Prop} (h : a' ∨ p ↔ a ∨ q) :
    (t ∨ a' ∨ d) ∨ p ↔ (t ∨ a ∨ d) ∨ q := by
  tauto

theorem setLoad_faulted (s : System) (i : ℕ) (l : Load) (status : LoadStatus)
    (hi : s.loads[i]? = some l) :
    Faulted (setLoad s i l status) ∨ BadLoad l ↔
      Faulted s ∨ BadLoad { l with status := status } := by
  exact or_exchange (exists_exchange s.loads i l { l with status := status } BadLoad hi)

theorem setDeletion_faulted (s : System) (i : ℕ) (d : Deletion) (status : Status)
    (hi : s.deletions[i]? = some d) :
    Faulted (setDeletion s i d status) ∨ BadDeletion d ↔
      Faulted s ∨ BadDeletion { d with status := status } := by
  have hx := or_exchange (t := ∃ l ∈ s.loads, BadLoad l) (d := ∃ sv ∈ s.saves, BadSave sv)
    (exists_exchange s.deletions i d { d with status := status } BadDeletion hi)
  unfold Faulted
  rw [or_assoc,or_assoc (a := Told s)]
  exact or_congr_right hx

theorem badSave_faulted {s : System} {sv : Save} (hm : sv ∈ s.saves) (hb : BadSave sv) :
    Faulted s := Or.inr (Or.inr (Or.inr ⟨sv,hm,hb⟩))

theorem setSave_faulted (s : System) (i : ℕ) (sv sv' : Save) (hi : s.saves[i]? = some sv)
    (hb : BadSave sv → BadSave sv') :
    Faulted { s with saves := s.saves.set i sv' } ↔ Faulted s ∨ BadSave sv' := by
  have hx : Faulted { s with saves := s.saves.set i sv' } ∨ BadSave sv ↔
      Faulted s ∨ BadSave sv' := by
    have := exists_exchange s.saves i sv sv' BadSave hi
    simp only [Faulted,Told,or_assoc,this]
  by_cases h : BadSave sv
  · have hm : sv' ∈ s.saves.set i sv' := List.mem_set (List.getElem?_eq_some_iff.mp hi).1 _
    exact iff_of_true (badSave_faulted hm (hb h)) (Or.inr (hb h))
  · rwa [or_iff_left h] at hx

theorem setSave_same (s : System) (i : ℕ) (sv sv' : Save) (hi : s.saves[i]? = some sv)
    (hb : BadSave sv' ↔ BadSave sv) :
    Faulted { s with saves := s.saves.set i sv' } ↔ Faulted s := by
  rw [setSave_faulted s i sv sv' hi hb.mpr,hb]
  exact or_iff_left_of_imp (badSave_faulted (List.mem_of_getElem? hi))

theorem badSave_setStatus (sv : Save) (f : SaveFile) (st : Status) (t : SaveTask)
    (h : Status.bad (saveOp sv.saved f) (sv.status f) = true →
      Status.bad (saveOp sv.saved f) st = true) :
    BadSave { sv.setStatus f st with task := t } ↔
      BadSave sv ∨ Status.bad (saveOp sv.saved f) st = true := by
  have hsame := setStatus_same sv f st
  have hother (g : SaveFile) (hg : g ≠ f) := setStatus_other sv f g st hg
  constructor
  · rintro ⟨g,hg⟩
    have hg' : Status.bad (saveOp sv.saved g) ((sv.setStatus f st).status g) = true := hg
    by_cases hgf : g = f
    · rw [hgf,hsame] at hg'
      exact Or.inr hg'
    · rw [hother g hgf] at hg'
      exact Or.inl ⟨g,hg'⟩
  · have hf (hst : Status.bad (saveOp sv.saved f) st = true) :
        BadSave { sv.setStatus f st with task := t } := by
      use f
      show Status.bad (saveOp sv.saved f) ((sv.setStatus f st).status f) = true
      rwa [hsame]
    rintro (⟨g,hg⟩ | hst)
    · by_cases hgf : g = f
      · rw [hgf] at hg
        exact hf (h hg)
      · use g
        show Status.bad (saveOp sv.saved g) ((sv.setStatus f st).status g) = true
        rwa [hother g hgf]
    · exact hf hst

theorem anyFailed_bad (sv : Save) (h : anyFailed sv = true) : BadSave sv := by
  obtain ⟨f,-,hf⟩ := List.any_eq_true.mp h
  use f
  cases hst : sv.status f with
  | called error => rwa [hst] at hf
  | _ => rw [hst] at hf; cases hf

theorem allTook_good (sv : Save) (h : AllTook sv) : ¬ BadSave sv := by
  rintro ⟨f,hf⟩
  have ht := h f
  cases hst : sv.status f with
  | inFlight => rw [hst] at hf; cases hf
  | done error =>
    rw [hst] at hf ht
    simp only [Status.bad,Status.took] at hf ht
    rw [ht] at hf
    cases hf
  | called error =>
    rw [hst] at hf ht
    simp only [Status.bad,Status.took] at hf ht
    rw [ht] at hf
    cases hf

theorem inFlight_good {l : Load} (h : l.status = .inFlight) : ¬ BadLoad l := by
  rintro ⟨result,hl,-⟩
  rw [h] at hl
  cases hl

theorem badLoad_read (l : Load) (result : LoadResult) (h : l.status = .read result) :
    BadLoad l ↔ Refused l.file result := by
  constructor
  · rintro ⟨r,hr,hrefused⟩
    rw [h] at hr
    cases hr
    exact hrefused
  · intro hrefused
    exact ⟨result,h,hrefused⟩

theorem badDeletion_done (d : Deletion) (error : Option GIOError) (h : d.status = .done error) :
    BadDeletion d ↔ ∃ e, error = some e ∧ e ≠ .notFound := by
  constructor
  · rintro ⟨e,he,hn⟩
    rw [h] at he
    cases he
    exact ⟨e,rfl,hn⟩
  · rintro ⟨e,rfl,hn⟩
    exact ⟨e,h,hn⟩

theorem fileLoadDeleteCb_fails (taskData error : Option GIOError) :
    Effect.isFailure (fileLoadDeleteCb taskData error) = true ↔
      taskData ≠ none ∨ ∃ e, error = some e ∧ e ≠ .notFound := by
  cases taskData with
  | some e => exact iff_of_true rfl (Or.inl nofun)
  | none =>
    cases error with
    | none => simp [fileLoadDeleteCb,Effect.isFailure]
    | some e =>
      by_cases he : e = .notFound <;>
        simp [fileLoadDeleteCb,he,Effect.isFailure]

theorem callback_guarded {s s' : System} {op : Operation} {b : System} {effects : List Effect}
    (h : Accounts s 0 0) (hs : step s op = some s') (hcb : callback s op = some (b,effects)) :
    Guarded b effects := by
  cases step_seen h hs with
  | quiet hno _ _ _ _ =>
    rw [hno] at hcb
    cases hcb
  | acts b' effects' units left hcb' after task data outstanding accounts spends =>
    rw [hcb'] at hcb
    cases hcb
    exact performAll_guarded effects b units left accounts spends

theorem loadCb_faulted {s : System} (h : Accounts s 0 0) (i : ℕ) (l : Load) (result : LoadResult)
    (hi : s.loads[i]? = some l) (hl : l.status = .read result)
    (hg : Guarded { setLoad s i l .called with
        manager := (fileLoadCb s.manager s.clock (gTaskHadError s.task) l.file result).1 }
      (fileLoadCb s.manager s.clock (gTaskHadError s.task) l.file result).2) :
    Faulted (loadCb s i l result) ↔ Faulted s := by
  have hset := setLoad_faulted s i l .called hi
  have hcalled : ¬ BadLoad { l with status := .called } := fun ⟨_,hr,_⟩ => by cases hr
  have hlive : s.task.cancelled = false := h.live
  have hfaulted := performAll_faulted _ _ hg hlive
  have hsame : Faulted { setLoad s i l .called with
      manager := (fileLoadCb s.manager s.clock (gTaskHadError s.task) l.file result).1 } ↔
    Faulted (setLoad s i l .called) := Iff.rfl
  rw [badLoad_read l result hl] at hset
  refine hfaulted.trans ?_
  rw [hsame]
  cases he : s.task.errorReturned with
  | true =>
    have hs : Faulted s := Or.inl (Or.inl he)
    have hs' : Faulted (setLoad s i l .called) := Or.inl (Or.inl he)
    exact iff_of_true (Or.inl hs') hs
  | false =>
    rw [hadError_eq h,he,fileLoadCb_refused,hset]
    simp [hcalled]

theorem deleteCb_faulted {s : System} (h : Accounts s 0 0) (i : ℕ) (d : Deletion)
    (error : Option GIOError) (hi : s.deletions[i]? = some d) (hd : d.status = .done error)
    (hg : Guarded (setDeletion s i d (.called error)) [fileLoadDeleteCb s.taskData error]) :
    Faulted (deleteCb s i d error) ↔ Faulted s := by
  have hset := setDeletion_faulted s i d (.called error) hi
  have hcalled : ¬ BadDeletion { d with status := .called error } :=
    fun ⟨_,hr,_⟩ => by cases hr
  have hlive : s.task.cancelled = false := h.live
  have hfaulted := performAll_faulted _ _ hg hlive
  rw [badDeletion_done d error hd] at hset
  refine hfaulted.trans ?_
  rw [List.any_cons,List.any_nil,Bool.or_false,fileLoadDeleteCb_fails]
  by_cases hdata : s.taskData = none
  · have hno : ¬ s.taskData ≠ none := fun hn => hn hdata
    rw [or_iff_right hno,hset]
    exact or_iff_left hcalled
  · have hs : Faulted s := Or.inl (Or.inr hdata)
    exact iff_of_true (Or.inr (Or.inl hdata)) hs

theorem saveCb_faulted {s : System} (h : Accounts s 0 0) (i : ℕ) (sv : Save)
    (hok : SaveOk sv) (hft : sv.forTask = true) (result : Except GIOError Unit)
    (hi : s.saves[i]? = some sv) (hresult : sv.result = some result)
    (hg : Guarded (setReported s i sv (internalSaveStateCb s.manager result).1)
      (reportEffects sv.forTask result)) :
    Faulted (saveCb s i sv result) ↔ Faulted s := by
  have hm := List.mem_of_getElem? hi
  have hlive : s.task.cancelled = false := h.live
  have hset : Faulted (setReported s i sv (internalSaveStateCb s.manager result).1) ↔ Faulted s :=
    setSave_same s i sv { sv with reported := true } hi Iff.rfl
  refine (performAll_faulted _ _ hg hlive).trans ?_
  rw [hset]
  cases result with
  | ok u =>
    have hno : (reportEffects sv.forTask (.ok u)).any Effect.isFailure = false := by
      rw [hft]
      rfl
    rw [hno]
    exact or_iff_left Bool.false_ne_true
  | error e =>
    have hb := anyFailed_bad sv (result_error sv hok e hresult)
    exact or_iff_left_of_imp (fun _ => badSave_faulted hm hb)

theorem inFlight_undeleted {d : Deletion} (h : d.status = .inFlight) : ¬ BadDeletion d := by
  rintro ⟨e,he,-⟩
  rw [h] at he
  cases he

theorem deleted_good (d : Deletion) (files : Directory) :
    ¬ BadDeletion { d with status := .done (FileOp.run (.delete d.file) files).1 } := by
  rw [badDeletion_done _ _ rfl]
  rintro ⟨e,he,hn⟩
  unfold FileOp.run at he
  split_ifs at he
  cases he
  exact hn rfl

theorem takeEffect_badSave (sv : Save) (f : SaveFile) (files : Directory)
    (hf : sv.status f = .inFlight) :
    BadSave (sv.setStatus f (.done (FileOp.run (saveOp sv.saved f) files).1)) ↔ BadSave sv := by
  have hdone : Status.bad (saveOp sv.saved f)
      (.done (FileOp.run (saveOp sv.saved f) files).1) = false := by
    simp only [Status.bad,(run_succeeded (saveOp sv.saved f) files).1,Bool.not_true]
  have hbad := badSave_setStatus sv f (.done (FileOp.run (saveOp sv.saved f) files).1)
    sv.task (by rw [hf]; exact fun h => absurd h Bool.false_ne_true)
  rwa [hdone,or_iff_left Bool.false_ne_true] at hbad

theorem opCb_badSave (sv : Save) (f : SaveFile) (error : Option GIOError) (t : SaveTask)
    (hf : sv.status f = .done error) :
    BadSave { sv.setStatus f (.called error) with task := t } ↔ BadSave sv := by
  have hsame : Status.bad (saveOp sv.saved f) (sv.status f) =
      Status.bad (saveOp sv.saved f) (.called error) := by
    rw [hf]
    rfl
  have hbad := badSave_setStatus sv f (.called error) t (fun h => hsame ▸ h)
  rwa [← hsame,or_iff_left_of_imp (fun h => ⟨f,h⟩)] at hbad

/-- The flag is raised by the faults, and by nothing else. -/
theorem step_faulted {s s' : System} {op : Operation} (h : Accounts s 0 0)
    (hsaves : ∀ sv ∈ s.saves, SaveOk sv ∧ sv.forTask = true) (hs : step s op = some s') :
    Faulted s' ↔ Faulted s ∨ Fault s op := by
  have hguard := @callback_guarded s s' op
  cases step_cases s s' op hs with
  | timePasses clock _ => exact (or_iff_left id).symm
  | read i l hi hf =>
    have hset := setLoad_faulted s i l (.read (loadContents s.files l.file)) hi
    rw [or_iff_left (inFlight_good hf),badLoad_read _ _ rfl] at hset
    rw [hset]
    simp [Fault,hi]
  | readFails i error l hi hf he =>
    have hset := setLoad_faulted s i l (.read (.failed error)) hi
    rw [or_iff_left (inFlight_good hf),badLoad_read _ _ rfl] at hset
    rw [hset]
    exact iff_of_true (Or.inr he) (Or.inr trivial)
  | loadCb i l result hi hl =>
    rw [loadCb_faulted h i l result hi hl (hguard h hs (callback_load hi hl))]
    exact (or_iff_left id).symm
  | delete i d hi hf =>
    have hset := setDeletion_faulted s i d (.done (FileOp.run (.delete d.file) s.files).1) hi
    rw [or_iff_left (inFlight_undeleted hf),or_iff_left (deleted_good d s.files)] at hset
    exact hset.trans (or_iff_left id).symm
  | deleteFails i error d hi hf =>
    have hset := setDeletion_faulted s i d (.done (some error)) hi
    rw [or_iff_left (inFlight_undeleted hf),badDeletion_done _ _ rfl] at hset
    rw [hset]
    simp [Fault]
  | deleteCb i d error hi hd =>
    rw [deleteCb_faulted h i d error hi hd (hguard h hs (callback_delete hi hd))]
    exact (or_iff_left id).symm
  | takeEffect i f sv sv' files' hi he =>
    rcases takeEffect_some sv sv' f s.files files' he with ⟨hf,-,rfl⟩
    exact (setSave_same s i sv _ hi (takeEffect_badSave sv f s.files hf)).trans
      (or_iff_left id).symm
  | fail i f error sv sv' hi he =>
    rcases fail_some sv sv' f error he with ⟨hf,hno,rfl⟩
    have hdone : Status.bad (saveOp sv.saved f) (.done (some error)) = true := by
      simp only [Status.bad,hno,Bool.not_false]
    have hbad := badSave_setStatus sv f (.done (some error)) sv.task (fun _ => hdone)
    have hset := setSave_faulted s i sv (sv.setStatus f (.done (some error))) hi
      (fun h => hbad.mpr (Or.inl h))
    rw [hset]
    exact iff_of_true (Or.inr (hbad.mpr (Or.inr hdone))) (Or.inr trivial)
  | opCb i f sv sv' hi he =>
    rcases opCb_some sv sv' f he with ⟨error,hf,rfl⟩
    exact (setSave_same s i sv _ hi (opCb_badSave sv f error _ hf)).trans (or_iff_left id).symm
  | saveCb i sv result hi hresult hr =>
    obtain ⟨hok,hft⟩ := hsaves sv (List.mem_of_getElem? hi)
    rw [saveCb_faulted h i sv hok hft result hi hresult
      (hguard h hs (callback_save hi hresult))]
    exact (or_iff_left id).symm

end EosPayg.InitFault
