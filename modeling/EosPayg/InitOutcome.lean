import EosPayg.InitFault

/-!
# What initialisation ends with

Whatever the files and the order of the callbacks, the task is returned once;
with success only when everything started has completed, and with an error
exactly when there was a fault.
-/

set_option autoImplicit false

namespace EosPayg.InitOutcome
open EosPayg.ManagerState EosPayg.ManagerFiles EosPayg.SaveQueue EosPayg.SaveProgress
  EosPayg.LoadCallback EosPayg.GuardedRun EosPayg.RecordList EosPayg.Initialisation
  EosPayg.InitTask EosPayg.InitProgress EosPayg.InitFault
open EosPayg.MultiTask (GTask gTaskHadError)
open EosPayg.ExpiryTimer (fileLoadCb_bytes deducedSpan deduceExpiryTime_span)
open EosPayg.Shutdown (internalSaveStateCb)

/-- A save of initialisation is for its task, and once it is reported without
the task failing it is done. -/
structure SaveKept (t : GTask GIOError Unit) (sv : Save) : Prop where
  ok : SaveOk sv
  forTask : sv.forTask = true
  done : sv.reported = true → t.errorReturned = true ∨ AllTook sv

/-- The accounts of the task are exact: units are kept only once it is to fail,
and then the deletion that tells it so is still to be called back. -/
structure Completing (s : System) : Prop where
  accounts : Accounts s 0 0
  truthful : Truthful s.task
  balance : ∃ kept, s.task.pending = outstanding s+kept ∧ (0 < kept → s.taskData ≠ none)
  telling : s.taskData ≠ none →
    s.task.errorReturned = true ∨ ∃ d ∈ s.deletions, d.status.isCalled = false
  saves : ∀ sv ∈ s.saves, SaveKept s.task sv

theorem performAll_data (effects : List Effect) (s : System) :
    (performAll s effects).taskData ≠ none ↔
      s.taskData ≠ none ∨ ∃ error, .taskSetData error ∈ effects := by
  induction effects generalizing s with
  | nil => simp [performAll]
  | cons e es ih =>
    have hrest := ih (perform s e)
    show (performAll (perform s e) es).taskData ≠ none ↔ _
    cases e with
    | taskSetData error =>
      have hsome : (performAll (perform s (.taskSetData error)) es).taskData ≠ none :=
        hrest.mpr (Or.inl (Option.some_ne_none _))
      exact iff_of_true hsome (Or.inr ⟨error,List.mem_cons_self⟩)
    | _ => simpa [perform] using hrest

theorem performAll_deletions (effects : List Effect) (s : System) :
    (∀ d ∈ s.deletions, d ∈ (performAll s effects).deletions) ∧
      ∀ file, .deleteFile file ∈ effects → ⟨file,.inFlight⟩ ∈ (performAll s effects).deletions := by
  rw [(performAll_lists effects s).2.1]
  constructor
  · exact fun d hd => List.mem_append_left _ hd
  · exact fun file hm => List.mem_append_right _ (List.mem_filterMap.mpr ⟨.deleteFile file,hm,rfl⟩)

theorem performAll_saved (effects : List Effect) (s : System) (sv : Save)
    (hm : sv ∈ (performAll s effects).saves) :
    sv ∈ s.saves ∨ ∃ saved forTask clock, .save saved forTask ∈ effects ∧
      sv = saveStateAsync saved clock forTask false := by
  rw [(performAll_lists effects s).2.2.1] at hm
  rcases List.mem_append.mp hm with h | h
  · exact Or.inl h
  · obtain ⟨e,he,hsv⟩ := List.mem_filterMap.mp h
    cases e with
    | save saved forTask =>
      cases hsv
      exact Or.inr ⟨saved,forTask,s.clock,he,rfl⟩
    | _ => cases hsv

def SavesForTask (effects : List Effect) : Prop :=
  ∀ saved forTask, .save saved forTask ∈ effects → forTask = true

theorem savesForTask_append {as bs : List Effect} (ha : SavesForTask as)
    (hb : SavesForTask bs) : SavesForTask (as++bs) := by
  intro saved forTask hm
  exact (List.mem_append.mp hm).elim (ha saved forTask) (hb saved forTask)

theorem setExpiryTime_forTask (self : EpgManager) (clock : EpgClock)
    (nowSecs spanSecs : UInt64) :
    SavesForTask (setExpiryTime self clock true true nowSecs spanSecs).2 := by
  rcases setExpiryTime_starts self clock nowSecs spanSecs with ⟨before,hb,he⟩
  rw [he]
  apply savesForTask_append
  · intro saved forTask hm
    cases List.all_eq_true.mp hb _ hm
  · intro saved forTask hm
    split_ifs at hm
    · simp only [List.mem_cons,reduceCtorEq,Effect.save.injEq,List.not_mem_nil,or_false,
        false_or] at hm
      exact hm.2
    · cases hm

theorem loadFile_forTask (self : EpgManager) (clock : EpgClock) (file : StateFile)
    (data : Option (List UInt8)) : SavesForTask (loadFile self clock file data).2.2 := by
  have hset := setExpiryTime_forTask self clock clock.time
  cases file with
  | clockTime =>
    show SavesForTask (loadWallclockTime self data).2.2
    unfold loadWallclockTime
    by_cases h0 : (data.getD []).length = 0
    · rw [if_pos h0]
      simp [SavesForTask]
    · rw [if_neg h0]
      by_cases h8 : (data.getD []).length ≠ 8
      · rw [if_pos h8]
        simp [SavesForTask,invalidData]
      · rw [if_neg h8]
        simp [SavesForTask]
  | expiryTime =>
    show SavesForTask (loadExpiryTime self clock data).2.2
    unfold loadExpiryTime
    by_cases h0 : (data.getD []).length = 0
    · rw [if_pos h0]
      exact hset 0
    · rw [if_neg h0]
      by_cases h8 : (data.getD []).length ≠ 8
      · rw [if_pos h8]
        simp [SavesForTask,invalidData]
      · rw [if_neg h8,andThen_effects]
        apply savesForTask_append (hset _)
        simp [SavesForTask]
  | expirySeconds =>
    show SavesForTask (loadExpirySeconds self clock data).2.2
    unfold loadExpirySeconds
    by_cases h0 : (data.getD []).length = 0
    · rw [if_pos h0]
      exact hset 0
    · rw [if_neg h0]
      split_ifs <;> simp [SavesForTask,invalidData]
  | usedCodes =>
    show SavesForTask (loadUsedCodes self data).2.2
    unfold loadUsedCodes
    cases usedCodesOfBytes (data.getD []) <;> simp [SavesForTask,invalidData]
  | key => cases data <;> simp [SavesForTask,loadFile,loadKey]
  | accountId => cases data <;> simp [SavesForTask,loadFile,loadAccountId]

theorem fileLoadCb_forTask (self : EpgManager) (clock : EpgClock) (hadError : Bool)
    (file : StateFile) (result : LoadResult) :
    SavesForTask (fileLoadCb self clock hadError file result).2 := by
  cases hadError with
  | true => simp [SavesForTask,fileLoadCb]
  | false =>
    rcases fileLoadCb_bytes self clock file result with ⟨e,-,hout⟩ | ⟨data,-,hout⟩
    · rw [hout]
      simp [SavesForTask]
    · have hl := loadFile_forTask self clock file data
      rw [hout,updateFromFile]
      by_cases hok : (loadFile self clock file data).1 = true
      · rw [if_pos hok,andThen_effects,andThen_effects]
        refine savesForTask_append (savesForTask_append hl ?_) (by simp [SavesForTask])
        rw [deduceExpiryTime_span]
        cases deducedSpan (loadFile self clock file data).2.1 clock file with
        | none => simp [SavesForTask]
        | some span => exact setExpiryTime_forTask _ clock clock.time span
      · rw [if_neg hok]
        exact hl

theorem saveKept_mono {t t' : GTask GIOError Unit} {sv : Save} (h : SaveKept t sv)
    (ht : t'.errorReturned = false → t.errorReturned = false) : SaveKept t' sv := by
  refine ⟨h.ok,h.forTask,fun hr => ?_⟩
  rcases h.done hr with he | hd
  · left
    by_contra hn
    have := ht (by simpa using hn)
    rw [he] at this
    cases this
  · exact Or.inr hd

theorem started_kept (t : GTask GIOError Unit) (saved : SavedState) (clock : EpgClock) :
    SaveKept t (saveStateAsync saved clock true false) :=
  ⟨saveStateAsync_ok saved clock true false,rfl,nofun⟩

theorem quiet_completing {s s' : System} (h : Completing s) (ht : s'.task = s.task)
    (hdata : s'.taskData = s.taskData) (ho : outstanding s' = outstanding s)
    (hw : weights s' = weights s)
    (hdel : (∃ d ∈ s.deletions, d.status.isCalled = false) →
      ∃ d ∈ s'.deletions, d.status.isCalled = false)
    (hsaves : ∀ sv ∈ s'.saves, SaveKept s.task sv) : Completing s' := by
  constructor
  · exact same_accounts h.accounts ht ho hw
  · rw [ht]
    exact h.truthful
  · rw [ht,hdata,ho]
    exact h.balance
  · rw [ht,hdata]
    exact fun hn => (h.telling hn).imp_right hdel
  · rw [ht]
    exact hsaves

theorem acts_completing {s : System} (h : Completing s) (b : System) (effects : List Effect)
    (ht : b.task = s.task) (hdata : b.taskData = s.taskData)
    (ho : outstanding b+1 = outstanding s) (ha : Accounts b 1 (costs effects))
    (hspend : run spend effects 1 = some 0 ∨
      run spend effects 1 = some 1 ∧ ∃ error, .taskSetData error ∈ effects)
    (htell : (performAll b effects).taskData ≠ none →
      (performAll b effects).task.errorReturned = true ∨
        ∃ d ∈ (performAll b effects).deletions, d.status.isCalled = false)
    (hsaves : ∀ sv ∈ (performAll b effects).saves, SaveKept (performAll b effects).task sv) :
    Completing (performAll b effects) := by
  obtain ⟨kept,hkept,hwhy⟩ := h.balance
  have hbalance (left : ℕ) (hs : run spend effects 1 = some left) :
      (performAll b effects).task.pending = outstanding (performAll b effects)+(kept+left) := by
    have hslack := performAll_slack effects b 1 left ha hs
    rw [ht,ho,hkept] at hslack
    omega
  have hold (hk : 0 < kept) : (performAll b effects).taskData ≠ none :=
    (performAll_data effects b).mpr (Or.inl (hdata ▸ hwhy hk))
  obtain ⟨left,hs⟩ : ∃ left, run spend effects 1 = some left :=
    hspend.elim (fun hz => ⟨0,hz⟩) (fun hone => ⟨1,hone.1⟩)
  constructor
  · exact weaken_accounts (performAll_accounts effects b 1 left ha hs) (Nat.zero_le _) le_rfl
  · apply performAll_truthful effects b
    · rw [ht]
      exact h.truthful
    · exact performAll_guarded effects b 1 left ha hs
  · rcases hspend with hz | ⟨hone,error,hm⟩
    · exact ⟨kept,hbalance 0 hz,hold⟩
    · exact ⟨kept+1,hbalance 1 hone,fun _ => (performAll_data effects b).mpr (Or.inr ⟨error,hm⟩)⟩
  · exact htell
  · exact hsaves

theorem telling_kept {s b : System} (h : Completing s) (effects : List Effect)
    (ht : b.task = s.task) (hd : b.deletions = s.deletions) (hdata : s.taskData ≠ none) :
    (performAll b effects).task.errorReturned = true ∨
      ∃ d ∈ (performAll b effects).deletions, d.status.isCalled = false := by
  rcases h.telling hdata with he | ⟨d,hm,hu⟩
  · left
    by_contra hn
    have hold := (performAll_extends effects b).error (by simpa using hn)
    rw [ht,he] at hold
    cases hold
  · exact Or.inr ⟨d,(performAll_deletions effects b).1 d (hd ▸ hm),hu⟩

theorem loadCb_completing {s : System} (h : Completing s) (i : ℕ) (l : Load)
    (result : LoadResult) (hi : s.loads[i]? = some l) (hl : l.status = .read result) :
    Completing (loadCb s i l result) := by
  have hc := read_uncalled hl
  have hcost := (fileLoadCb_spends s.manager s.clock (gTaskHadError s.task) l.file result).2
  have hleft := fileLoadCb_left s.manager s.clock (gTaskHadError s.task) l.file result
  have hft := fileLoadCb_forTask s.manager s.clock (gTaskHadError s.task) l.file result
  unfold loadCb acted loadActs
  dsimp only
  generalize fileLoadCb s.manager s.clock (gTaskHadError s.task) l.file result = out at *
  show Completing (performAll { setLoad s i l .called with manager := out.1 } out.2)
  have herr := (performAll_extends out.2 { setLoad s i l .called with manager := out.1 }).error
  have hdels := performAll_deletions out.2 { setLoad s i l .called with manager := out.1 }
  apply acts_completing h { setLoad s i l .called with manager := out.1 } out.2 rfl rfl
    (called_outstanding s i l out.1 hi hc)
    (weaken_accounts (called_accounts h.accounts i l out.1 hi hc) le_rfl hcost)
  · rcases hleft with ⟨hz,-⟩ | ⟨hone,before,heff⟩
    · exact Or.inl hz
    · exact Or.inr ⟨hone,.invalidData,by rw [heff]; simp [invalidData]⟩
  · intro hdata
    rcases (performAll_data _ _).mp hdata with hold | ⟨error,hm⟩
    · exact telling_kept h _ rfl rfl hold
    · rcases hleft with ⟨-,hno⟩ | ⟨-,before,heff⟩
      · exact absurd hm (hno error)
      · exact Or.inr ⟨⟨l.file,.inFlight⟩,hdels.2 l.file (by rw [heff]; simp [invalidData]),rfl⟩
  · intro sv hm
    rcases performAll_saved _ _ sv hm with hold | ⟨saved,forTask,clock,hsave,rfl⟩
    · exact saveKept_mono (h.saves sv hold) herr
    · rw [hft saved forTask hsave]
      exact started_kept _ saved clock

theorem deleteCb_completing {s : System} (h : Completing s) (i : ℕ) (d : Deletion)
    (error : Option GIOError) (hi : s.deletions[i]? = some d) (hd : d.status = .done error) :
    Completing (deleteCb s i d error) := by
  have ha := deleteCb_accounts h.accounts i d error hi hd
  have hpos : 0 < s.task.pending := (Nat.le_add_left 1 _).trans ha.owed
  have herr := (performAll_extends [fileLoadDeleteCb s.taskData error]
    (setDeletion s i d (.called error))).error
  have hcases := fileLoadDeleteCb_cases s.taskData error
  obtain ⟨hspend,hcost⟩ := giveBack_spends hcases
  unfold deleteCb acted deleteActs
  dsimp only
  apply acts_completing h (setDeletion s i d (.called error))
    [fileLoadDeleteCb s.taskData error] rfl rfl
    (deleted_outstanding s i d error hi hd)
  · rw [hcost]
    exact ha
  · exact Or.inl hspend
  · intro hdata
    have hold : s.taskData ≠ none := by
      rcases (performAll_data _ _).mp hdata with hold | ⟨e,hm⟩
      · exact hold
      · rcases hcases with he | ⟨e',he⟩ <;> rw [he] at hm <;> simp at hm
    obtain ⟨e,he⟩ := Option.ne_none_iff_exists'.mp hold
    left
    rw [he]
    exact (returnError_task s.task e hpos h.accounts.live).2.2.1
  · intro sv hm
    rcases performAll_saved _ _ sv hm with hold | ⟨saved,forTask,clock,hsave,-⟩
    · exact saveKept_mono (h.saves sv hold) herr
    · rcases hcases with he | ⟨e,he⟩ <;> rw [he] at hsave <;> simp at hsave

theorem saveCb_completing {s : System} (h : Completing s) (i : ℕ) (sv : Save)
    (result : Except GIOError Unit) (hi : s.saves[i]? = some sv)
    (hresult : sv.result = some result) (hr : sv.reported = false) :
    Completing (saveCb s i sv result) := by
  have hkept := h.saves sv (List.mem_of_getElem? hi)
  have ha := reported_accounts h.accounts i sv (internalSaveStateCb s.manager result).1 hi hr
  have ho := reported_outstanding s i sv (internalSaveStateCb s.manager result).1 hi hr
  rw [hkept.forTask,if_pos rfl] at ha ho
  have hpos : 0 < s.task.pending := (Nat.le_add_left 1 _).trans ha.owed
  have herr := (performAll_extends (reportEffects sv.forTask result)
    (setReported s i sv (internalSaveStateCb s.manager result).1)).error
  obtain ⟨e,he,hkind⟩ := reportEffects_forTask result
  have heff : reportEffects sv.forTask result = [e] := by rw [hkept.forTask,he]
  obtain ⟨hspend,hcost⟩ := giveBack_spends hkind
  unfold saveCb acted saveActs
  dsimp only
  apply acts_completing h (setReported s i sv (internalSaveStateCb s.manager result).1)
    (reportEffects sv.forTask result) rfl rfl ho
  · rw [heff,hcost]
    exact ha
  · rw [heff]
    exact Or.inl hspend
  · intro hdata
    rcases (performAll_data _ _).mp hdata with hold | ⟨error,hm⟩
    · exact telling_kept h _ rfl rfl hold
    · rw [heff] at hm
      rcases hkind with rfl | ⟨error,rfl⟩ <;> simp at hm
  · intro o hm
    rcases performAll_saved _ _ o hm with hold | ⟨saved,forTask,clock,hsave,-⟩
    · rcases List.mem_or_eq_of_mem_set hold with hold | rfl
      · exact saveKept_mono (h.saves o hold) herr
      · refine ⟨(reported_good sv hkept.ok result hresult).1,hkept.forTask,fun _ => ?_⟩
        cases result with
        | ok u => exact Or.inr (result_ok sv hkept.ok hresult)
        | error e' =>
          left
          rw [hkept.forTask]
          exact (returnError_task s.task e' hpos h.accounts.live).2.2.1
    · rw [heff] at hsave
      rcases hkind with rfl | ⟨error,rfl⟩ <;> simp at hsave

theorem moved_completing {s : System} (h : Completing s) (i : ℕ) (sv sv' : Save)
    (files : Directory) (hi : s.saves[i]? = some sv) (hp : Progress sv sv')
    (ht : sv'.forTask = sv.forTask) :
    Completing { s with saves := s.saves.set i sv', files := files } := by
  have hkept := h.saves sv (List.mem_of_getElem? hi)
  refine quiet_completing h rfl rfl (setSave_counts s i sv sv' hi ht hp.reported) rfl id ?_
  intro o hm
  rcases List.mem_or_eq_of_mem_set hm with hm | rfl
  · exact h.saves o hm
  · refine ⟨hp.ok,ht.trans hkept.forTask,fun hr => ?_⟩
    exact (hkept.done (hp.reported.symm.trans hr)).imp_right hp.allTook

theorem setLoad_completing {s : System} (h : Completing s) (i : ℕ) (l : Load)
    (result : LoadResult) (hi : s.loads[i]? = some l) (hf : l.status = .inFlight) :
    Completing (setLoad s i l (.read result)) := by
  obtain ⟨ho,hw⟩ := setLoad_counts s i l result hi hf
  exact quiet_completing h rfl rfl ho hw id h.saves

theorem setDeletion_completing {s : System} (h : Completing s) (i : ℕ) (d : Deletion)
    (error : Option GIOError) (files : Directory) (hi : s.deletions[i]? = some d)
    (hf : d.status = .inFlight) :
    Completing { setDeletion s i d (.done error) with files := files } := by
  have ho := setDeletion_counts s i d error hi hf
  refine quiet_completing h rfl rfl ho rfl (fun _ => ?_) h.saves
  exact ⟨{ d with status := .done error },
    List.mem_set (List.getElem?_eq_some_iff.mp hi).1 _,rfl⟩

theorem step_completing {s s' : System} {op : Operation} (h : Completing s)
    (hs : step s op = some s') : Completing s' := by
  have hok (i : ℕ) (sv : Save) (hi : s.saves[i]? = some sv) : SaveOk sv :=
    (h.saves sv (List.mem_of_getElem? hi)).ok
  cases step_cases s s' op hs with
  | timePasses clock _ => exact quiet_completing h rfl rfl rfl rfl id h.saves
  | read i l hi hf => exact setLoad_completing h i l _ hi hf
  | readFails i error l hi hf he => exact setLoad_completing h i l _ hi hf
  | loadCb i l result hi hl => exact loadCb_completing h i l result hi hl
  | delete i d hi hf => exact setDeletion_completing h i d _ _ hi hf
  | deleteFails i error d hi hf => exact setDeletion_completing h i d _ s.files hi hf
  | deleteCb i d error hi hd => exact deleteCb_completing h i d error hi hd
  | takeEffect i f sv sv' files' hi he =>
    have hp := takeEffect_progress sv sv' f s.files files' (hok i sv hi) he
    rcases takeEffect_some sv sv' f s.files files' he with ⟨-,-,rfl⟩
    exact moved_completing h i sv _ files' hi hp rfl
  | fail i f error sv sv' hi he =>
    have hp := (fail_progress sv sv' f error (hok i sv hi) he).1
    rcases fail_some sv sv' f error he with ⟨-,-,rfl⟩
    exact moved_completing h i sv _ s.files hi hp rfl
  | opCb i f sv sv' hi he =>
    have hp := (opCb_progress sv sv' f (hok i sv hi) he).1
    rcases opCb_some sv sv' f he with ⟨error,-,rfl⟩
    exact moved_completing h i sv _ s.files hi hp rfl
  | saveCb i sv result hi hresult hr => exact saveCb_completing h i sv result hi hresult hr

theorem initAsync_completing (self : EpgManager) (clock : EpgClock) (files : Directory) :
    Completing (initAsync self clock files) := by
  constructor
  · exact initAsync_accounts self clock files
  · exact ⟨rfl,nofun,fun _ => rfl⟩
  · exact ⟨0,rfl,nofun⟩
  · exact fun hn => absurd rfl hn
  · exact nofun

theorem returned_length {t : GTask GIOError Unit} (h : Truthful t) :
    t.returned.length = if t.errorReturned = true ∨ t.pending = 0 then 1 else 0 := by
  cases he : t.errorReturned with
  | true =>
    obtain ⟨e,hret⟩ := h.failed he
    rw [hret,if_pos (Or.inl rfl)]
    rfl
  | false =>
    rw [h.completed he]
    simp only [Bool.false_eq_true,false_or]
    split_ifs <;> rfl

theorem error_returned {t : GTask GIOError Unit} (h : Truthful t) :
    (∃ e, .error e ∈ t.returned) ↔ t.errorReturned = true := by
  constructor
  · rintro ⟨e,hm⟩
    by_contra he
    rw [h.completed (by simpa using he)] at hm
    split_ifs at hm
    · cases List.mem_singleton.mp hm
    · cases hm
  · intro he
    obtain ⟨e,hret⟩ := h.failed he
    exact ⟨e,by rw [hret]; exact List.mem_singleton_self _⟩

theorem complete_told {s : System} (h : Completing s) (hc : Complete s) :
    Faulted s ↔ s.task.errorReturned = true := by
  refine ⟨?_,fun he => Or.inl (Or.inl he)⟩
  rintro ((he | hdata) | ⟨l,hl,result,hr,-⟩ | ⟨d,hd,error,hr,-⟩ | ⟨sv,hm,hb⟩)
  · exact he
  · rcases h.telling hdata with he | ⟨d,hd,hu⟩
    · exact he
    · rw [hc.deletions d hd] at hu
      cases hu
  · cases (read_uncalled hr).symm.trans (hc.loads l hl)
  · have := hc.deletions d hd
    rw [hr] at this
    cases this
  · rcases (h.saves sv hm).done (hc.saves sv hm) with he | ht
    · exact he
    · exact absurd hb (allTook_good sv ht)

theorem complete_pending {s : System} (h : Completing s) (hc : Complete s)
    (he : s.task.errorReturned = false) : s.task.pending = 0 := by
  obtain ⟨kept,hkept,hwhy⟩ := h.balance
  rw [(complete_iff s (fun sv hm => (h.saves sv hm).forTask)).mp hc] at hkept
  rcases Nat.eq_zero_or_pos kept with hz | hk
  · rw [hkept,hz]
  · have htold := (complete_told h hc).mp (Or.inl (Or.inr (hwhy hk)))
    rw [he] at htold
    cases htold

theorem initialised_complete {s : System} (h : Completing s) (hd : Initialised s) :
    Complete s ∧ s.task.errorReturned = false := by
  obtain ⟨hz,he⟩ := h.accounts.finished hd
  have howed := h.accounts.owed
  exact ⟨(complete_iff s (fun sv hm => (h.saves sv hm).forTask)).mpr (by omega),he⟩

theorem step_guards {s s' : System} {op : Operation} (h : Completing s)
    (hs : step s op = some s') : GuardsHold s op := by
  refine ⟨fun b effects hcb => callback_guarded h.accounts hs hcb,?_⟩
  rintro i f sv rfl hi
  cases step_cases s s' _ hs with
  | opCb _ _ sv₁ sv' hi' he =>
    rw [hi] at hi'
    cases hi'
    rcases opCb_some sv sv' f he with ⟨error,hf,-⟩
    rw [(h.saves sv (List.mem_of_getElem? hi)).ok.pending]
    exact uncalled_pos sv f (by rw [hf]; rfl)

theorem complete_initialised {s : System} (h : Completing s) (hc : Complete s) :
    Initialised s ↔ ¬ Faulted s := by
  rw [complete_told h hc]
  constructor
  · intro hd he
    exact absurd (he.symm.trans (initialised_complete h hd).2) (by decide)
  · intro he
    have herr : s.task.errorReturned = false := by simpa using he
    refine ⟨.boolean true,?_⟩
    rw [h.truthful.completed herr,if_pos (complete_pending h hc herr)]
    exact List.mem_singleton_self _

theorem completing_faulted {s s' : System} {op : Operation} (h : Completing s)
    (hs : step s op = some s') : Faulted s' ↔ Faulted s ∨ Fault s op :=
  step_faulted h.accounts (fun sv hm => ⟨(h.saves sv hm).ok,(h.saves sv hm).forTask⟩) hs

theorem initAsync_faultless (self : EpgManager) (clock : EpgClock) (files : Directory) :
    ¬ Faulted (initAsync self clock files) := by
  rintro ((he | hdata) | ⟨l,hl,result,hread,-⟩ | ⟨d,hd,-⟩ | ⟨sv,hm,-⟩)
  · cases he
  · exact hdata rfl
  · simp only [initAsync,List.mem_cons,List.not_mem_nil,or_false] at hl
    rcases hl with rfl | rfl | rfl | rfl <;> cases hread
  · cases hd
  · cases hm

theorem faulted_iff_meets (self : EpgManager) (clock : EpgClock) (files : Directory)
    (ops : List Operation) (s : System)
    (hr : run step ops (initAsync self clock files) = some s) :
    Faulted s ↔ Meets step Fault ops (initAsync self clock files) := by
  have hraised := raised_iff_meets (P := Fault) (J := Completing) (I := Faulted)
    (fun _ _ _ h hs => step_completing h hs) (fun _ _ _ h hs => completing_faulted h hs)
    (initAsync_completing self clock files) hr
  rwa [or_iff_right (initAsync_faultless self clock files)] at hraised

theorem acts_bounded (self : EpgManager) (clock : EpgClock) (files : Directory)
    (ops : List Operation) (s : System)
    (hr : run step ops (initAsync self clock files) = some s) :
    ops.countP Operation.acts ≤ 85 := by
  have hwork := run_work (J := Completing) (m := work) (c := Operation.acts)
    (fun _ _ _ h hs => step_completing h hs) (fun _ _ _ _ hs => step_work hs)
    (initAsync_completing self clock files) hr
  have hw : work (initAsync self clock files) = 85 := rfl
  omega

/-- For any files, any failures and any order of the callbacks: the task is
returned at most once, and exactly once when everything has completed, which it
does after a bounded number of steps; no guard of a task trips; success means
that all that was started has completed and every save is done; an error is
returned only after a fault, and after every fault by the time everything has
completed. -/
theorem finishes_once (enabled : Bool) (clock : EpgClock) (files : Directory)
    (ops : List Operation) (s : System)
    (hr : run step ops (initAsync (epgManagerInit enabled) clock files) = some s) :
    s.task.returned.length ≤ 1 ∧
      (Complete s → s.task.returned.length = 1) ∧
      (¬ Complete s → Moves s) ∧
      ops.countP Operation.acts ≤ 85 ∧
      Along step GuardsHold ops (initAsync (epgManagerInit enabled) clock files) ∧
      (Initialised s → Complete s ∧ ∀ sv ∈ s.saves, AllTook sv) ∧
      ((∃ e, .error e ∈ s.task.returned) →
        Meets step Fault ops (initAsync (epgManagerInit enabled) clock files)) ∧
      (Complete s → Meets step Fault ops (initAsync (epgManagerInit enabled) clock files) →
        ∃ e, .error e ∈ s.task.returned) := by
  have hinit := initAsync_completing (epgManagerInit enabled) clock files
  have hkeep : ∀ s op s', Completing s → step s op = some s' → Completing s' :=
    fun _ _ _ h hs => step_completing h hs
  have h : Completing s := run_invariant hkeep hinit hr
  have hflag := faulted_iff_meets (epgManagerInit enabled) clock files ops s hr
  have hlen := returned_length h.truthful
  refine ⟨?_,?_,?_,?_,?_,?_,?_,?_⟩
  · rw [hlen]
    split_ifs <;> decide
  · intro hc
    rw [hlen]
    cases he : s.task.errorReturned with
    | true => rfl
    | false => rw [if_pos (Or.inr (complete_pending h hc he))]
  · exact moves s (fun sv hm => (h.saves sv hm).ok)
  · exact acts_bounded (epgManagerInit enabled) clock files ops s hr
  · exact along_of_invariant hkeep (fun _ _ _ ha hs => step_guards ha hs) hinit hr
  · intro hd
    obtain ⟨hc,he⟩ := initialised_complete h hd
    refine ⟨hc,fun sv hm => ?_⟩
    rcases (h.saves sv hm).done (hc.saves sv hm) with he' | ht
    · rw [he] at he'
      cases he'
    · exact ht
  · intro he
    exact hflag.mp (Or.inl (Or.inl ((error_returned h.truthful).mp he)))
  · intro hc hm
    exact (error_returned h.truthful).mpr ((complete_told h hc).mp (hflag.mpr hm))

def halfCode : Directory := fun file => if file = .usedCodes then some [7] else none

def halfCodeRun : List Operation :=
  [.read 1, .loadCb 1, .read 0, .loadCb 0, .read 2, .loadCb 2, .read 3, .loadCb 3, .read 4,
    .loadCb 4, .delete 0, .deleteCb 0]

theorem finishes_once_example :
    ∃ s, run step halfCodeRun (initAsync (epgManagerInit true) ⟨10, 1000, true⟩ halfCode) =
        some s ∧ s.task.returned.length = 1 ∧ ∃ e, .error e ∈ s.task.returned := by
  have h : ((run step halfCodeRun
      (initAsync (epgManagerInit true) ⟨10, 1000, true⟩ halfCode)).any (fun s =>
        s.loads.all Load.isCalled && s.deletions.all (fun d => d.status.isCalled) &&
          s.saves.all Save.reported)) = true := by decide +kernel
  rcases (Option.any_eq_true _ _).mp h with ⟨s,hs,hd⟩
  simp only [Bool.and_eq_true,List.all_eq_true] at hd
  have hc : Complete s := ⟨hd.1.1,hd.1.2,hd.2⟩
  have hfault : Fault (initAsync (epgManagerInit true) ⟨10, 1000, true⟩ halfCode) (.read 1) :=
    ⟨⟨.usedCodes, .inFlight⟩,rfl,Or.inl rfl⟩
  obtain ⟨-,hone,-,-,-,-,-,htold⟩ := finishes_once true ⟨10, 1000, true⟩ halfCode _ s hs
  exact ⟨s,hs,hone hc,htold hc (Or.inl hfault)⟩

end EosPayg.InitOutcome
