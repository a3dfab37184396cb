import EosPayg.InitTask
import EosPayg.ServiceStartup

/-!
# Whether the manager is enabled

The configuration says whether a manager is made enabled, and the callback of its key
file takes that back when there is no key. No other callback touches it, and nothing a
manager starts touches the key file: what an initialised manager tells the service is
decided by the two.
-/

set_option autoImplicit false

namespace EosPayg.ManagerEnabled
open EosPayg.ManagerState EosPayg.ManagerFiles EosPayg.SaveQueue EosPayg.GuardedRun
  EosPayg.RecordList EosPayg.Initialisation
open EosPayg.LoadCallback (setExpiryTime_starts)
open EosPayg.MultiTask (gTaskHadError returnError)
open EosPayg.ServiceStartup (Deployment epgManagerNewFinish managerNewFinish_ok)
open EosPayg.ExpiryTimer (loadedBytes fileLoadCb_bytes deduceExpiryTime_span)
open EosPayg.Shutdown (internalSaveStateCb)
open EosPayg.InitTask (step_accounts initAsync_accounts fileLoadDeleteCb_cases)

def keyLoaded (s : System) : Bool := s.loads.any (fun l => l.file = .key && l.isCalled)

structure KeyFile (key : Option (List UInt8)) (s : System) : Prop where
  disk : s.files .key = key
  deletions : ∀ d ∈ s.deletions, d.file ≠ .key
  reads : ∀ l ∈ s.loads, l.file = .key → ∀ data ∈ l.bytes, data = key
  loading : ∃ l ∈ s.loads, l.file = .key

structure Keyed (enabled : Bool) (key : Option (List UInt8)) (s : System) : Prop where
  accounts : Accounts s 0 0
  file : KeyFile key s
  settled : s.task.errorReturned = false →
    s.manager.enabled = (enabled && (!keyLoaded s || key.isSome))

theorem setExpiryTime_deletes (self : EpgManager) (clock : EpgClock) (nowSecs spanSecs : UInt64)
    (file : StateFile) :
    .deleteFile file ∉ (setExpiryTime self clock true true nowSecs spanSecs).2 := by
  obtain ⟨before,hout,he⟩ := setExpiryTime_starts self clock nowSecs spanSecs
  rw [he,List.mem_append]
  rintro (h | h)
  · have := List.all_eq_true.mp hout _ h
    cases this
  · split_ifs at h <;> simp at h

theorem loadFile_deletes (self : EpgManager) (clock : EpgClock) (file : StateFile)
    (data : Option (List UInt8)) : .deleteFile .key ∉ (loadFile self clock file data).2.2 := by
  have hset := setExpiryTime_deletes self clock clock.time
  cases file with
  | clockTime =>
    show _ ∉ (loadWallclockTime self data).2.2
    unfold loadWallclockTime
    dsimp only
    split_ifs <;> simp [invalidData]
  | expiryTime =>
    show _ ∉ (loadExpiryTime self clock data).2.2
    unfold loadExpiryTime
    dsimp only
    split_ifs
    · exact hset 0 .key
    · simp [invalidData]
    all_goals
      rw [andThen_effects,List.mem_append]
      rintro (h | h)
      · exact hset _ .key h
      · simp at h
  | expirySeconds =>
    show _ ∉ (loadExpirySeconds self clock data).2.2
    unfold loadExpirySeconds
    dsimp only
    split_ifs
    · exact hset 0 .key
    · simp [invalidData]
    · simp
  | usedCodes =>
    show _ ∉ (loadUsedCodes self data).2.2
    unfold loadUsedCodes
    split <;> simp [invalidData]
  | key =>
    show _ ∉ (loadKey self data).2.2
    unfold loadKey
    split <;> simp
  | accountId =>
    show _ ∉ (loadAccountId self data).2.2
    unfold loadAccountId
    split <;> simp

theorem updateFromFile_deletes (self : EpgManager) (clock : EpgClock) (file : StateFile)
    (data : Option (List UInt8)) :
    .deleteFile .key ∉ (updateFromFile self clock file data).2 := by
  have hl := loadFile_deletes self clock file data
  unfold updateFromFile
  dsimp only
  split_ifs
  · rw [andThen_effects,andThen_effects,List.mem_append,List.mem_append]
    rintro ((h | h) | h)
    · exact hl h
    · rw [deduceExpiryTime_span] at h
      split at h
      · exact setExpiryTime_deletes _ clock clock.time _ .key h
      · cases h
    · simp at h
  · exact hl

theorem updateFromFile_key (self : EpgManager) (clock : EpgClock) (data : Option (List UInt8)) :
    (updateFromFile self clock .key data).1.enabled = (self.enabled && data.isSome) := by
  have hd := (deduceExpiryTime_keeps (loadKey self data).2.1 clock .key .accountId).enabled nofun
  have hload : (loadKey self data).1 = true ∧
      (loadKey self data).2.1.enabled = (self.enabled && data.isSome) := by
    cases data with
    | none => exact ⟨rfl,(Bool.and_false _).symm⟩
    | some bytes => exact ⟨rfl,(Bool.and_true _).symm⟩
  show (updateFromFile self clock .key data).1.enabled = _
  unfold updateFromFile
  dsimp only
  rw [show loadFile self clock .key data = loadKey self data from rfl,if_pos hload.1]
  exact hd.trans hload.2

theorem keyFile_congr {key : Option (List UInt8)} {s s' : System} (h : KeyFile key s)
    (hf : s'.files .key = s.files .key) (hl : s'.loads = s.loads)
    (hd : ∀ d ∈ s'.deletions, d.file ≠ .key) : KeyFile key s' :=
  ⟨hf.trans h.disk,hd,hl ▸ h.reads,hl ▸ h.loading⟩

theorem keyFile_performAll {key : Option (List UInt8)} {s : System} (h : KeyFile key s)
    {effects : List Effect} (hd : .deleteFile .key ∉ effects) :
    KeyFile key (performAll s effects) := by
  have hx := performAll_extends effects s
  obtain ⟨new,hl,hn⟩ := hx.loads
  obtain ⟨l,hm,hf⟩ := h.loading
  refine ⟨(congrFun hx.files _).trans h.disk,?_,?_,?_⟩
  · rw [(performAll_lists effects s).2.1]
    intro d hm
    rcases List.mem_append.mp hm with hm | hm
    · exact h.deletions d hm
    · obtain ⟨e,he,hde⟩ := List.mem_filterMap.mp hm
      cases e with
      | deleteFile file =>
        cases hde
        rintro rfl
        exact hd he
      | _ => cases hde
  · rw [hl]
    intro o ho hof data hdata
    rcases List.mem_append.mp ho with ho | ho
    · exact h.reads o ho hof data hdata
    · rw [Load.bytes,hn o ho] at hdata
      cases hdata
  · rw [hl]
    exact ⟨l,List.mem_append_left _ hm,hf⟩

theorem keyFile_setLoad {key : Option (List UInt8)} {s : System} (h : KeyFile key s) {i : ℕ}
    {l : Load} (hi : s.loads[i]? = some l) (status : LoadStatus) (m : EpgManager)
    (hr : l.file = .key → ∀ data ∈ Load.bytes ⟨l.file, status⟩, data = key) :
    KeyFile key { setLoad s i l status with manager := m } :=
  ⟨h.disk,h.deletions,forall_set s.loads i _ h.reads hr,exists_set s.loads i l _ hi h.loading id⟩

theorem acts_keyed {enabled : Bool} {key : Option (List UInt8)} {b : System}
    {effects : List Effect} (ha : Accounts (performAll b effects) 0 0) (hf : KeyFile key b)
    (hd : .deleteFile .key ∉ effects)
    (hs : b.task.errorReturned = false → (performAll b effects).task.errorReturned = false →
      b.manager.enabled = (enabled && (!keyLoaded b || key.isSome))) :
    Keyed enabled key (performAll b effects) := by
  have hx := performAll_extends effects b
  refine ⟨ha,keyFile_performAll hf hd,fun herr => ?_⟩
  rw [hx.manager,show keyLoaded (performAll b effects) = keyLoaded b from extends_loaded hx .key]
  exact hs (hx.error herr) herr

variable {enabled : Bool} {key : Option (List UInt8)} {s s' : System}

theorem errorCb_keyed (h : Keyed enabled key s) {i : ℕ} {l : Load} (error : GIOError)
    (hi : s.loads[i]? = some l) (hc : l.isCalled = false)
    (ha : Accounts (performAll { setLoad s i l .called with manager := s.manager }
      [.taskReturnError error]) 0 0) :
    Keyed enabled key (performAll { setLoad s i l .called with manager := s.manager }
      [.taskReturnError error]) := by
  have hpos : 0 < s.task.pending :=
    (Nat.le_add_left 1 _).trans (called_accounts h.accounts i l s.manager hi hc).owed
  apply acts_keyed ha (keyFile_setLoad h.file hi .called s.manager (fun _ _ hd => by cases hd))
  · simp
  · intro _ herr
    have herr' : (returnError s.task error).errorReturned = false := herr
    rw [(returnError_task s.task error hpos h.accounts.live).2.2.1] at herr'
    cases herr'

theorem loadCb_keyed (h : Keyed enabled key s) {i : ℕ} {l : Load} {result : LoadResult}
    (hi : s.loads[i]? = some l) (hl : l.status = .read result)
    (ha : Accounts (loadCb s i l result) 0 0) : Keyed enabled key (loadCb s i l result) := by
  have hc := read_uncalled hl
  have hmem := List.mem_of_getElem? hi
  unfold loadCb acted loadActs at ha ⊢
  dsimp only at ha ⊢
  rw [hadError_eq h.accounts] at ha ⊢
  cases he : s.task.errorReturned with
  | true =>
    rw [he] at ha
    exact errorCb_keyed h .failed hi hc ha
  | false =>
    rw [he] at ha
    rcases fileLoadCb_bytes s.manager s.clock l.file result with ⟨e,-,hout⟩ | ⟨data,hb,hout⟩
    · rw [hout] at ha ⊢
      exact errorCb_keyed h e hi hc ha
    · rw [hout] at ha ⊢
      have hfile := keyFile_setLoad h.file hi .called
        (updateFromFile s.manager s.clock l.file data).1 (fun _ _ hd => by cases hd)
      apply acts_keyed ha hfile (updateFromFile_deletes s.manager s.clock l.file data)
      intro _ _
      have hold := h.settled he
      show (updateFromFile s.manager s.clock l.file data).1.enabled =
        (enabled && (!(setLoad s i l .called).loads.any (fun l => l.file = .key && l.isCalled) ||
          key.isSome))
      by_cases hf : l.file = .key
      · have hdata : data = key :=
          h.file.reads l hmem hf data (by rw [Load.bytes,hl]; exact hb)
        have hloaded : (setLoad s i l .called).loads.any
            (fun l => l.file = .key && l.isCalled) = true :=
          List.any_eq_true.mpr ⟨{ l with status := .called },
            List.mem_set (List.getElem?_eq_some_iff.mp hi).1 _,by simp [hf,Load.isCalled]⟩
        rw [hf,updateFromFile_key,hold,hdata,hloaded]
        cases enabled <;> cases keyLoaded s <;> cases key.isSome <;> rfl
      · rw [(updateFromFile_keeps s.manager s.clock l.file data).enabled hf,
          called_other s i l .key hi hf]
        exact hold

theorem step_keyed {op : Operation} (h : Keyed enabled key s) (hs : step s op = some s') :
    Keyed enabled key s' := by
  have ha := step_accounts h.accounts hs
  have hf := h.file
  have hset (i : ℕ) (d : Deletion) (status : Status) (hi : s.deletions[i]? = some d) :
      ∀ o ∈ (setDeletion s i d status).deletions, o.file ≠ .key :=
    forall_set s.deletions i { d with status := status } hf.deletions
      (hf.deletions d (List.mem_of_getElem? hi))
  have hread (i : ℕ) (l : Load) (result : LoadResult) (hi : s.loads[i]? = some l)
      (hfl : l.status = .inFlight) : keyLoaded (setLoad s i l (.read result)) = keyLoaded s := by
    apply any_kept _ _ _ _ _ hi
    simp [Load.isCalled,hfl]
  cases step_cases s s' op hs with
  | timePasses clock => exact ⟨ha,keyFile_congr hf rfl rfl hf.deletions,h.settled⟩
  | read i l hi hfl =>
    refine ⟨ha,keyFile_setLoad hf hi _ s.manager fun hl data hd => ?_,fun herr => ?_⟩
    · have hbytes : data ∈ loadedBytes (loadContents s.files l.file) := hd
      rw [loadedBytes_loadContents,hl,hf.disk] at hbytes
      exact (Option.some.inj hbytes).symm
    · rw [hread i l _ hi hfl]
      exact h.settled herr
  | readFails i error l hi hfl he =>
    refine ⟨ha,keyFile_setLoad hf hi _ s.manager fun _ data hd => ?_,fun herr => ?_⟩
    · have hbytes : data ∈ loadedBytes (.failed error) := hd
      simp [loadedBytes,he] at hbytes
    · rw [hread i l _ hi hfl]
      exact h.settled herr
  | loadCb i l result hi hl => exact loadCb_keyed h hi hl ha
  | delete i d hi hfl =>
    have hne := hf.deletions d (List.mem_of_getElem? hi)
    exact ⟨ha,keyFile_congr hf ((run_succeeded _ _).2.2 .key (fun hh => hne hh.symm)) rfl
      (hset i d _ hi),h.settled⟩
  | deleteFails i error d hi hfl => exact ⟨ha,keyFile_congr hf rfl rfl (hset i d _ hi),h.settled⟩
  | deleteCb i d error hi hd =>
    apply acts_keyed ha (keyFile_congr hf rfl rfl (hset i d _ hi))
    · show Effect.deleteFile .key ∉ [fileLoadDeleteCb s.taskData error]
      rcases fileLoadDeleteCb_cases s.taskData error with hx | ⟨x,hx⟩ <;> rw [hx] <;> simp
    · exact fun herr _ => h.settled herr
  | takeEffect i f sv sv' files' hi he =>
    obtain ⟨-,rfl,-⟩ := takeEffect_some sv sv' f s.files files' he
    have hne : StateFile.key ≠ (saveOp sv.saved f).file := by
      rw [saveOp_file]
      cases f <;> decide
    exact ⟨ha,keyFile_congr hf ((run_succeeded _ _).2.2 .key hne) rfl hf.deletions,h.settled⟩
  | fail i f error sv sv' hi he => exact ⟨ha,keyFile_congr hf rfl rfl hf.deletions,h.settled⟩
  | opCb i f sv sv' hi he => exact ⟨ha,keyFile_congr hf rfl rfl hf.deletions,h.settled⟩
  | saveCb i sv result hi hresult hr =>
    have hkept : (internalSaveStateCb s.manager result).1.enabled = s.manager.enabled := by
      unfold internalSaveStateCb
      dsimp only
      split_ifs <;> rfl
    apply acts_keyed ha (keyFile_congr hf rfl rfl hf.deletions)
    · show Effect.deleteFile .key ∉ reportEffects sv.forTask result
      cases sv.forTask <;> cases result <;> simp [reportEffects]
    · intro herr _
      exact hkept.trans (h.settled herr)

theorem initAsync_keyed (enabled : Bool) (clock : EpgClock) (files : Directory) :
    Keyed enabled (files .key) (initAsync (epgManagerInit enabled) clock files) := by
  refine ⟨initAsync_accounts _ clock files,⟨rfl,nofun,?_,?_⟩,fun _ => (Bool.and_true _).symm⟩
  · intro l hl _ data hd
    have hflight : l.status = .inFlight := by
      simp only [initAsync,List.mem_cons,List.not_mem_nil,or_false] at hl
      rcases hl with rfl | rfl | rfl | rfl <;> rfl
    rw [Load.bytes,hflight] at hd
    cases hd
  · exact ⟨⟨.key, .inFlight⟩,by simp [initAsync],rfl⟩

/-- However the callbacks of initialisation run, what it succeeds with says to be enabled
what the service is given. -/
theorem initialised_enabled (d : Deployment) (enabled : Bool) (clock : EpgClock)
    (files : Directory) (hk : files .key = d.keyFile) (ops : List Operation) (s : System)
    (hr : run step ops (initAsync (epgManagerInit enabled) clock files) = some s)
    (hd : Initialised s) : epgManagerNewFinish d enabled none = .ok s.manager.enabled := by
  have h : Keyed enabled d.keyFile s := run_invariant (fun _ _ _ hi hs => step_keyed hi hs)
    (hk ▸ initAsync_keyed enabled clock files) hr
  obtain ⟨hpending,herr⟩ := h.accounts.finished hd
  obtain ⟨l,hm,hf⟩ := h.file.loading
  have hcalled : ∀ o ∈ s.loads, o.isCalled = true := by
    have howed := h.accounts.owed
    rw [hpending] at howed
    have hz : s.loads.countP (fun l => !l.isCalled) = 0 := by
      unfold outstanding at howed
      omega
    intro o ho
    simpa using List.countP_eq_zero.mp hz o ho
  have hloaded : keyLoaded s = true :=
    List.any_eq_true.mpr ⟨l,hm,by simp [hf,hcalled l hm]⟩
  rw [managerNewFinish_ok,h.settled herr,hloaded]
  simp

end EosPayg.ManagerEnabled
