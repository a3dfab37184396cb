import EosPayg.ManagerState
import EosPayg.GuardedRun

/-!
# The state files, the callback that loads one, and the operations of a save

A directory gives the bytes of each file, if it is there. `fileLoadCb` is run
once for every file that finishes loading; it updates the manager and may
start further loads, deletions and a save. `initialise` is the order in which
the small files of a complete directory are seen one after another.
-/

set_option autoImplicit false

namespace EosPayg.ManagerFiles
open EosPayg.WordArithmetic EosPayg.PaygCodes EosPayg.ManagerState EosPayg.GuardedRun

abbrev Directory := StateFile → Option (List UInt8)

inductive LoadResult where
  | contents (data : List UInt8)
  | failed (error : GIOError)
  deriving DecidableEq

def loadContents (files : Directory) (file : StateFile) : LoadResult :=
  match files file with
  | some data => .contents data
  | none => .failed .notFound

def usedCodeBytes (c : UsedCode) : List UInt8 := [c.counter, UInt8.ofNat c.period.value]

def usedCodesBytes (codes : List UsedCode) : List UInt8 := codes.flatMap usedCodeBytes

/-- The `UsedCode` array behind the bytes of the file, unless their number is
odd or some period is not valid. -/
def usedCodesOfBytes : List UInt8 → Option (List UsedCode)
  | [] => some []
  | [_] => none
  | counter::period::rest =>
    match epcPeriodValidate period.toNat with
    | .error _ => none
    | .ok p => (usedCodesOfBytes rest).map (fun codes => ⟨counter, p⟩::codes)

theorem usedCodesOfBytes_usedCodesBytes (codes : List UsedCode) :
    usedCodesOfBytes (usedCodesBytes codes) = some codes := by
  induction codes with
  | nil => rfl
  | cons c codes ih =>
    have hv : (UInt8.ofNat c.period.value).toNat = c.period.value := by
      have := c.period.value_lt
      rw [UInt8.toNat_ofNat']
      omega
    show usedCodesOfBytes (c.counter::UInt8.ofNat c.period.value::usedCodesBytes codes) = _
    rw [usedCodesOfBytes,hv,epcPeriodValidate_value,ih]
    rfl

theorem usedCodesBytes_usedCodesOfBytes (bytes : List UInt8) (codes : List UsedCode)
    (h : usedCodesOfBytes bytes = some codes) : usedCodesBytes codes = bytes := by
  induction bytes using usedCodesOfBytes.induct generalizing codes with
  | case1 =>
    cases h
    rfl
  | case2 b => cases h
  | case3 counter period rest e he =>
    rw [usedCodesOfBytes,he] at h
    cases h
  | case4 counter period rest p hp ih =>
    rw [usedCodesOfBytes,hp] at h
    obtain ⟨tail,ht,rfl⟩ := Option.map_eq_some_iff.mp h
    show counter::UInt8.ofNat p.value::usedCodesBytes tail = _
    rw [ih tail ht,epcPeriodValidate_ok hp,UInt8.ofNat_toNat]

def invalidData (self : EpgManager) (file : StateFile) : Outcome :=
  (self, [.taskIncrement, .taskSetData .invalidData, .deleteFile file])

abbrev Loaded := Bool × Outcome

def loadWallclockTime (self : EpgManager) (data : Option (List UInt8)) : Loaded :=
  let child : List Effect := [.taskIncrement,
    .loadContents (if data = none then .expiryTime else .expirySeconds)]
  let bytes := data.getD []
  if bytes.length = 0 then (true, self, child)
  else if bytes.length ≠ 8 then (false, andThen (self,child) (fun m => invalidData m .clockTime))
  else (true, { self with lastSaveTimeSecs := some (wordOfBytes bytes) }, child)

def loadExpiryTime (self : EpgManager) (clock : EpgClock) (data : Option (List UInt8)) :
    Loaded :=
  let bytes := data.getD []
  if bytes.length = 0 then (true, setExpiryTime self clock true true clock.time 0)
  else if bytes.length ≠ 8 then (false, invalidData self .expiryTime)
  else
    let secs := wordOfBytes bytes
    (true, andThen
      (setExpiryTime self clock true true clock.time
        (if secs > clock.wallclockTime then secs-clock.wallclockTime else 0))
      (fun m => (m, [.taskIncrement, .deleteFile .expiryTime])))

def loadExpirySeconds (self : EpgManager) (clock : EpgClock) (data : Option (List UInt8)) :
    Loaded :=
  let bytes := data.getD []
  if bytes.length = 0 then (true, setExpiryTime self clock true true clock.time 0)
  else if bytes.length ≠ 8 then (false, invalidData self .expirySeconds)
  else (true, { self with lastSaveExpirySecs := some (wordOfBytes bytes) }, [])

def loadUsedCodes (self : EpgManager) (data : Option (List UInt8)) : Loaded :=
  match usedCodesOfBytes (data.getD []) with
  | none => (false, invalidData self .usedCodes)
  | some codes => (true, { self with usedCodes := gArraySort codes }, [])

def keyMinimumLengthBytes : ℕ := 64

def loadKey (self : EpgManager) (data : Option (List UInt8)) : Loaded :=
  match data with
  | some bytes => (true, { self with keyBytes := bytes }, [])
  | none =>
    let disabled := { self with enabled := false }
    (true, { disabled with keyBytes := List.replicate keyMinimumLengthBytes 0 },
      [.notify .enabled (published disabled)])

def loadAccountId (self : EpgManager) (data : Option (List UInt8)) : Loaded :=
  match data with
  | some bytes => (true, { self with accountId := bytes.takeWhile (fun b => b ≠ 0) }, [])
  | none => (true, self, [])

def yearSecs : UInt64 := 365*24*60*60

def bogusCreditLowerLimitSecs : UInt64 := 5*yearSecs

def bogusCreditUpperLimitSecs : UInt64 := 100*yearSecs

def typicalPaymentSecs : UInt64 := 31*24*60*60

def creditOnLoad (timeSecs expirySecs wallclockNowSecs : UInt64) : UInt64 :=
  if timeSecs > wallclockNowSecs then expirySecs
  else if wallclockNowSecs-timeSecs > expirySecs then 0
  else if bogusCreditLowerLimitSecs < expirySecs-(wallclockNowSecs-timeSecs) ∧
      expirySecs-(wallclockNowSecs-timeSecs) < bogusCreditUpperLimitSecs then
    typicalPaymentSecs
  else expirySecs-(wallclockNowSecs-timeSecs)

/-- Once both the wall clock time and the expiry seconds have been loaded,
deduce the expiry time from them. -/
def deduceExpiryTime (self : EpgManager) (clock : EpgClock) (file : StateFile) : Outcome :=
  match self.lastSaveTimeSecs, self.lastSaveExpirySecs with
  | some timeSecs, some expirySecs =>
    if file = .clockTime ∨ file = .expirySeconds then
      setExpiryTime self clock true true clock.time
        (creditOnLoad timeSecs expirySecs clock.wallclockTime)
    else (self, [])
  | _, _ => (self, [])

def loadFile (self : EpgManager) (clock : EpgClock) (file : StateFile)
    (data : Option (List UInt8)) : Loaded :=
  match file with
  | .clockTime => loadWallclockTime self data
  | .expiryTime => loadExpiryTime self clock data
  | .expirySeconds => loadExpirySeconds self clock data
  | .usedCodes => loadUsedCodes self data
  | .key => loadKey self data
  | .accountId => loadAccountId self data

def updateFromFile (self : EpgManager) (clock : EpgClock) (file : StateFile)
    (data : Option (List UInt8)) : Outcome :=
  let loaded := loadFile self clock file data
  if loaded.1 then
    andThen (andThen loaded.2 (fun m => deduceExpiryTime m clock file))
      (fun m => (m, [.taskReturnBoolean]))
  else loaded.2

def fileLoadCb (self : EpgManager) (clock : EpgClock) (taskHadError : Bool)
    (file : StateFile) (result : LoadResult) : Outcome :=
  if taskHadError then (self, [.taskReturnError .failed])
  else match result with
    | .contents data => updateFromFile self clock file (some data)
    | .failed error =>
      if error = .notFound then updateFromFile self clock file none
      else (self, [.taskReturnError error])

/-- The end of a deletion started by `fileLoadCb`; `taskData` is the error the
task is to fail with. -/
def fileLoadDeleteCb (taskData : Option GIOError) (result : Option GIOError) : Effect :=
  match taskData with
  | some error => .taskReturnError error
  | none =>
    match result with
    | none => .taskReturnBoolean
    | some error => if error = .notFound then .taskReturnBoolean else .taskReturnError error

structure Kept (file : StateFile) (m m' : EpgManager) : Prop where
  cancelled : m'.cancelled = m.cancelled
  rateLimiting : m'.rateLimiting = m.rateLimiting
  usedCodes : file ≠ .usedCodes → m'.usedCodes = m.usedCodes
  enabled : file ≠ .key → m'.enabled = m.enabled
  keyBytes : file ≠ .key → m'.keyBytes = m.keyBytes

theorem deduceExpiryTime_keeps (self : EpgManager) (clock : EpgClock) (file seen : StateFile) :
    Kept seen self (deduceExpiryTime self clock file).1 := by
  unfold deduceExpiryTime
  split
  · split_ifs
    · rw [setExpiryTime_state]
      exact ⟨rfl,rfl,fun _ => rfl,fun _ => rfl,fun _ => rfl⟩
    · exact ⟨rfl,rfl,fun _ => rfl,fun _ => rfl,fun _ => rfl⟩
  · exact ⟨rfl,rfl,fun _ => rfl,fun _ => rfl,fun _ => rfl⟩

theorem loadFile_keeps (self : EpgManager) (clock : EpgClock) (file : StateFile)
    (data : Option (List UInt8)) : Kept file self (loadFile self clock file data).2.1 := by
  cases file with
  | clockTime =>
    show Kept _ self (loadWallclockTime self data).2.1
    unfold loadWallclockTime
    dsimp only
    split_ifs <;> exact ⟨rfl,rfl,fun _ => rfl,fun _ => rfl,fun _ => rfl⟩
  | expiryTime =>
    show Kept _ self (loadExpiryTime self clock data).2.1
    unfold loadExpiryTime
    dsimp only
    split_ifs <;> simp only [andThen_state,setExpiryTime_state,invalidData] <;>
      exact ⟨rfl,rfl,fun _ => rfl,fun _ => rfl,fun _ => rfl⟩
  | expirySeconds =>
    show Kept _ self (loadExpirySeconds self clock data).2.1
    unfold loadExpirySeconds
    dsimp only
    split_ifs <;> simp only [setExpiryTime_state,invalidData] <;>
      exact ⟨rfl,rfl,fun _ => rfl,fun _ => rfl,fun _ => rfl⟩
  | usedCodes =>
    show Kept _ self (loadUsedCodes self data).2.1
    unfold loadUsedCodes
    split <;> exact ⟨rfl,rfl,fun h => absurd rfl h,fun _ => rfl,fun _ => rfl⟩
  | key =>
    show Kept _ self (loadKey self data).2.1
    unfold loadKey
    split <;> exact ⟨rfl,rfl,fun _ => rfl,fun h => absurd rfl h,fun h => absurd rfl h⟩
  | accountId =>
    show Kept _ self (loadAccountId self data).2.1
    unfold loadAccountId
    split <;> exact ⟨rfl,rfl,fun _ => rfl,fun _ => rfl,fun _ => rfl⟩

theorem kept_trans {file : StateFile} {self m m' : EpgManager} (h : Kept file self m)
    (h' : Kept file m m') : Kept file self m' :=
  ⟨h'.cancelled.trans h.cancelled,h'.rateLimiting.trans h.rateLimiting,
    fun hf => (h'.usedCodes hf).trans (h.usedCodes hf),
    fun hf => (h'.enabled hf).trans (h.enabled hf),
    fun hf => (h'.keyBytes hf).trans (h.keyBytes hf)⟩

theorem updateFromFile_keeps (self : EpgManager) (clock : EpgClock) (file : StateFile)
    (data : Option (List UInt8)) : Kept file self (updateFromFile self clock file data).1 := by
  have hl := loadFile_keeps self clock file data
  unfold updateFromFile
  dsimp only
  split_ifs
  · exact kept_trans hl (deduceExpiryTime_keeps _ clock file file)
  · exact hl

inductive FileOp where
  | replaceContents (file : StateFile) (bytes : List UInt8)
  | delete (file : StateFile)
  deriving DecidableEq

def FileOp.file : FileOp → StateFile
  | .replaceContents file _ => file
  | .delete file => file

def FileOp.result : FileOp → Option (List UInt8)
  | .replaceContents _ bytes => some bytes
  | .delete _ => none

def FileOp.apply (op : FileOp) (files : Directory) : Directory :=
  Function.update files op.file op.result

def saveOps (s : SavedState) : List FileOp :=
  [.replaceContents .clockTime (wordBytes s.clockTime),
    .replaceContents .expirySeconds (wordBytes s.expirySeconds),
    if s.usedCodes.codes = [] then .delete .usedCodes
    else .replaceContents .usedCodes (usedCodesBytes s.usedCodes.codes)]

def usedCodesImage (used : UsedCodes) : Option (List UInt8) :=
  if used.codes = [] then none else some (usedCodesBytes used.codes)

def Holds (files : Directory) (s : SavedState) : Prop :=
  files .clockTime = some (wordBytes s.clockTime) ∧
    files .expirySeconds = some (wordBytes s.expirySeconds) ∧
    files .usedCodes = usedCodesImage s.usedCodes

def directoryOf (s : SavedState) (key : List UInt8) : Directory
  | .clockTime => some (wordBytes s.clockTime)
  | .expirySeconds => some (wordBytes s.expirySeconds)
  | .usedCodes => usedCodesImage s.usedCodes
  | .key => some key
  | .accountId => none
  | .expiryTime => none

theorem directoryOf_holds (s : SavedState) (key : List UInt8) : Holds (directoryOf s key) s :=
  ⟨rfl,rfl,rfl⟩

instance (files : Directory) (s : SavedState) : Decidable (Holds files s) :=
  inferInstanceAs (Decidable (_ ∧ _ ∧ _))

def applyAll (ops : List FileOp) (files : Directory) : Directory :=
  ops.foldl (fun d op => op.apply d) files

theorem saveOps_holds (s : SavedState) (files : Directory) :
    Holds (applyAll (saveOps s) files) s := by
  refine ⟨?_,?_,?_⟩ <;> by_cases h : s.usedCodes.codes = [] <;>
    simp [applyAll,saveOps,usedCodesImage,FileOp.apply,FileOp.file,FileOp.result,h]

theorem usedCodesImage_decodes (used : UsedCodes) :
    usedCodesOfBytes ((usedCodesImage used).getD []) = some used.codes := by
  unfold usedCodesImage
  split_ifs with h
  · rw [h]
    rfl
  · exact usedCodesOfBytes_usedCodesBytes used.codes

def Effect.isFailure : Effect → Bool
  | .taskReturnError _ => true
  | .taskSetData _ => true
  | _ => false

def loadStep (clock : EpgClock) (files : Directory) (self : EpgManager) (file : StateFile) :
    Option EpgManager :=
  let out := fileLoadCb self clock false file (loadContents files file)
  if out.2.any Effect.isFailure then none else some out.1

def loadOrder (files : Directory) : List StateFile :=
  [.usedCodes, .key, .accountId, .clockTime,
    if files .clockTime = none then .expiryTime else .expirySeconds]

/-- A new manager initialised from a directory, if that succeeds. -/
def initialise (clock : EpgClock) (files : Directory) : Option EpgManager :=
  run (loadStep clock files) (loadOrder files) (epgManagerInit true)

theorem any_isFailure_ofTimer (effects : List Effect) (h : effects.all Effect.ofTimer = true) :
    effects.any Effect.isFailure = false := by
  rw [List.any_eq_false]
  intro e he
  have ht := List.all_eq_true.mp h e he
  cases e <;> first | exact Bool.false_ne_true | cases ht

theorem setExpiryTime_noFailure (self : EpgManager) (clock : EpgClock) (task save : Bool)
    (nowSecs spanSecs : UInt64) :
    (setExpiryTime self clock task save nowSecs spanSecs).2.any Effect.isFailure = false := by
  rcases setExpiryTime_effects self clock task save nowSecs spanSecs with ⟨before,hb,he⟩
  rw [he,List.any_append,any_isFailure_ofTimer before hb]
  split_ifs
  · cases task <;> rfl
  · rfl
  · rfl

theorem deduceExpiryTime_noFailure (self : EpgManager) (clock : EpgClock) (file : StateFile) :
    (deduceExpiryTime self clock file).2.any Effect.isFailure = false := by
  unfold deduceExpiryTime
  split
  · split_ifs
    · exact setExpiryTime_noFailure _ _ _ _ _ _
    · rfl
  · rfl

theorem deduceExpiryTime_other (self : EpgManager) (clock : EpgClock) (file : StateFile)
    (h : self.lastSaveTimeSecs = none ∨ self.lastSaveExpirySecs = none ∨
      (file ≠ .clockTime ∧ file ≠ .expirySeconds)) :
    deduceExpiryTime self clock file = (self,[]) := by
  unfold deduceExpiryTime
  split
  · next t x ht hx =>
    simp only [ht,hx,reduceCtorEq,false_or] at h
    rw [if_neg (by tauto)]
  · rfl

theorem fileLoadCb_seen (self : EpgManager) (clock : EpgClock) (file : StateFile)
    (files : Directory) :
    fileLoadCb self clock false file (loadContents files file) =
      updateFromFile self clock file (files file) := by
  unfold loadContents fileLoadCb
  cases files file <;> simp

theorem loadStep_ok (self m : EpgManager) (clock : EpgClock) (files : Directory)
    (file : StateFile) (effects : List Effect)
    (h : loadFile self clock file (files file) = (true,m,effects))
    (he : effects.any Effect.isFailure = false) :
    loadStep clock files self file = some (deduceExpiryTime m clock file).1 := by
  have hd := deduceExpiryTime_noFailure m clock file
  unfold loadStep
  rw [fileLoadCb_seen,updateFromFile,h]
  simp only [if_true,andThen_effects,andThen_state,List.any_append,he,hd]
  rfl

theorem loadUsedCodes_image (self : EpgManager) (used : UsedCodes) :
    loadUsedCodes self (usedCodesImage used) = (true,{ self with usedCodes := used },[]) := by
  unfold loadUsedCodes
  rw [usedCodesImage_decodes]
  simp only [gArraySort_sorted]

def loadedManager (clock : EpgClock) (s : SavedState) (key : List UInt8)
    (accountId : Option (List UInt8)) : EpgManager where
  usedCodes := s.usedCodes
  expiryTimeSecs := expiryAfter clock clock.time
    (creditOnLoad s.clockTime s.expirySeconds clock.wallclockTime)
  enabled := true
  keyBytes := key
  accountId := (accountId.getD []).takeWhile (fun b => b ≠ 0)
  expiry := timerAfter clock clock.time
    (creditOnLoad s.clockTime s.expirySeconds clock.wallclockTime)
  lastSaveTimeSecs := some s.clockTime
  lastSaveExpirySecs := some s.expirySeconds
  rateLimiting := noAttempts
  pendingInternalSaveStateCalls :=
    if 0 ≠ expiryAfter clock clock.time
      (creditOnLoad s.clockTime s.expirySeconds clock.wallclockTime) then 1 else 0
  cancelled := false
  pendingShutdown := none

theorem initialise_saved (clock : EpgClock) (files : Directory) (s : SavedState)
    (key : List UInt8) (hs : Holds files s) (hk : files .key = some key) :
    initialise clock files = some (loadedManager clock s key (files .accountId)) := by
  obtain ⟨ht,hx,hu⟩ := hs
  have hc : files .clockTime ≠ none := by simp [ht]
  let m1 : EpgManager := { epgManagerInit true with usedCodes := s.usedCodes }
  let m2 : EpgManager := { m1 with keyBytes := key }
  let m3 : EpgManager :=
    { m2 with accountId := ((files .accountId).getD []).takeWhile (fun b => b ≠ 0) }
  let m4 : EpgManager := { m3 with lastSaveTimeSecs := some s.clockTime }
  let m5 : EpgManager := { m4 with lastSaveExpirySecs := some s.expirySeconds }
  have h1 : loadStep clock files (epgManagerInit true) .usedCodes = some m1 := by
    have hl : loadFile (epgManagerInit true) clock .usedCodes (files .usedCodes) =
        (true,m1,[]) := by
      rw [hu]
      exact loadUsedCodes_image _ _
    rw [loadStep_ok _ _ _ _ _ _ hl rfl,deduceExpiryTime_other _ _ _ (Or.inl rfl)]
  have h2 : loadStep clock files m1 .key = some m2 := by
    have hl : loadFile m1 clock .key (files .key) = (true,m2,[]) := by
      rw [hk]
      rfl
    rw [loadStep_ok _ _ _ _ _ _ hl rfl,deduceExpiryTime_other _ _ _ (Or.inl rfl)]
  have h3 : loadStep clock files m2 .accountId = some m3 := by
    have hl : loadFile m2 clock .accountId (files .accountId) = (true,m3,[]) := by
      cases ha : files .accountId with
      | none => simp [loadFile,loadAccountId,m3,m2,m1,ha,epgManagerInit]
      | some bytes => simp [loadFile,loadAccountId,m3,ha]
    rw [loadStep_ok _ _ _ _ _ _ hl rfl,deduceExpiryTime_other _ _ _ (Or.inl rfl)]
  have h4 : loadStep clock files m3 .clockTime = some m4 := by
    have hl : loadFile m3 clock .clockTime (files .clockTime) =
        (true,m4,[.taskIncrement, .loadContents .expirySeconds]) := by
      rw [ht]
      simp [loadFile,loadWallclockTime,m4]
    rw [loadStep_ok _ _ _ _ _ _ hl rfl,deduceExpiryTime_other _ _ _ (Or.inr (Or.inl rfl))]
  have h5 : loadStep clock files m4 .expirySeconds =
      some (loadedManager clock s key (files .accountId)) := by
    have hl : loadFile m4 clock .expirySeconds (files .expirySeconds) = (true,m5,[]) := by
      rw [hx]
      simp [loadFile,loadExpirySeconds,m5]
    have hd : deduceExpiryTime m5 clock .expirySeconds =
        setExpiryTime m5 clock true true clock.time
          (creditOnLoad s.clockTime s.expirySeconds clock.wallclockTime) := rfl
    rw [loadStep_ok _ _ _ _ _ _ hl rfl,hd,setExpiryTime_state]
    simp [loadedManager,m5,m4,m3,m2,m1,epgManagerInit]
  unfold initialise loadOrder
  rw [if_neg hc]
  simp only [run,h1,h2,h3,h4,h5,Option.bind_some]

theorem initialise_holds {clock : EpgClock} {files : Directory} {s : SavedState}
    {key : List UInt8} {m : EpgManager} (hm : initialise clock files = some m)
    (hs : Holds files s) (hk : files .key = some key) :
    m = loadedManager clock s key (files .accountId) := by
  rw [initialise_saved clock files s key hs hk] at hm
  exact (Option.some.inj hm).symm

/-- Credit that is taken for a mistake and reset on load. -/
def Bogus (credit : ℕ) : Prop :=
  bogusCreditLowerLimitSecs.toNat < credit ∧ credit < bogusCreditUpperLimitSecs.toNat

instance (credit : ℕ) : Decidable (Bogus credit) := inferInstanceAs (Decidable (_ ∧ _))

def creditLeft (timeSecs expirySecs wallclockNowSecs : ℕ) : ℕ :=
  if timeSecs ≤ wallclockNowSecs ∧ bogusCreditLowerLimitSecs.toNat <
      expirySecs-(wallclockNowSecs-timeSecs) ∧
      expirySecs-(wallclockNowSecs-timeSecs) < bogusCreditUpperLimitSecs.toNat then
    typicalPaymentSecs.toNat
  else expirySecs-(wallclockNowSecs-timeSecs)

theorem creditOnLoad_toNat (t x w : UInt64) :
    (creditOnLoad t x w).toNat = creditLeft t.toNat x.toNat w.toNat := by
  have hl : bogusCreditLowerLimitSecs.toNat = 157680000 := rfl
  unfold creditOnLoad creditLeft
  by_cases htw : t > w
  · have hn := UInt64.lt_iff_toNat_lt.mp htw
    rw [if_pos htw,if_neg (fun h => by omega)]
    omega
  · have hle := UInt64.not_lt.mp htw
    have hn := UInt64.le_iff_toNat_le.mp hle
    have hd : (w-t).toNat = w.toNat-t.toNat := UInt64.toNat_sub_of_le _ _ hle
    rw [if_neg htw]
    by_cases hx : w-t > x
    · have hxn := UInt64.lt_iff_toNat_lt.mp hx
      rw [if_pos hx,if_neg (fun h => by omega),UInt64.toNat_zero]
      omega
    · have hle' := UInt64.not_lt.mp hx
      have hc : (x-(w-t)).toNat = x.toNat-(w.toNat-t.toNat) := by
        rw [UInt64.toNat_sub_of_le _ _ hle',hd]
      rw [if_neg hx]
      simp only [UInt64.lt_iff_toNat_lt,hc,hn,true_and]
      split_ifs
      · rfl
      · exact hc

def seen (clock : EpgClock) (files : Directory) : Option (UsedCodes × ℕ) :=
  (initialise clock files).map (fun m => (m.usedCodes,remaining m clock.time))

def worth (clock : EpgClock) (span : UInt64) : ℕ :=
  (expiryAfter clock clock.time span).toNat-clock.time.toNat

theorem seen_saved (clock : EpgClock) (files : Directory) (s : SavedState) (key : List UInt8)
    (hs : Holds files s) (hk : files .key = some key) :
    seen clock files = some (s.usedCodes,
      worth clock (creditOnLoad s.clockTime s.expirySeconds clock.wallclockTime)) := by
  unfold seen
  rw [initialise_saved clock files s key hs hk]
  rfl

end EosPayg.ManagerFiles
