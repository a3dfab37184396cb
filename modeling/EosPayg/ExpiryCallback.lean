import EosPayg.InitOutcome

/-!
# What the callback of a file has to do with the expiry time

The clock time leads on to one of two files, and these to an expiry time. With
it come at most one save and the deletion of the expiry time in the old format.
No other callback starts a load or a save, or deletes any of the three files.
-/

set_option autoImplicit false

namespace EosPayg.ExpiryCallback
open EosPayg.WordArithmetic EosPayg.ManagerState EosPayg.ManagerFiles EosPayg.SaveQueue
  EosPayg.LoadCallback EosPayg.Initialisation EosPayg.InitFault
open EosPayg.ExpiryTimer (fileLoadCb_bytes)

def StateFile.ofExpiry : StateFile → Bool
  | .clockTime => true
  | .expirySeconds => true
  | .expiryTime => true
  | _ => false

/-- A callback that has no part in deciding the expiry time: it starts no load and
no save, and deletes at most the used codes. -/
structure Aside (m : EpgManager) (out : Outcome) : Prop where
  expiryTimeSecs : out.1.expiryTimeSecs = m.expiryTimeSecs
  lastSaveTimeSecs : out.1.lastSaveTimeSecs = m.lastSaveTimeSecs
  lastSaveExpirySecs : out.1.lastSaveExpirySecs = m.lastSaveExpirySecs
  loads : out.2.filterMap Effect.load = []
  deletions : ∀ d ∈ out.2.filterMap Effect.deletion, d.file = .usedCodes
  saves : ∀ clock, out.2.filterMap (Effect.started clock) = []

theorem aside_same (self m : EpgManager) (effects : List Effect)
    (hx : m.expiryTimeSecs = self.expiryTimeSecs) (ht : m.lastSaveTimeSecs = self.lastSaveTimeSecs)
    (hs : m.lastSaveExpirySecs = self.lastSaveExpirySecs)
    (he : ∀ e ∈ effects, Effect.load e = none ∧ (∀ d ∈ Effect.deletion e, d.file = .usedCodes) ∧
      ∀ clock, Effect.started clock e = none) : Aside self (m,effects) := by
  refine ⟨hx,ht,hs,?_,?_,?_⟩
  · rw [List.filterMap_eq_nil_iff]
    exact fun e hm => (he e hm).1
  · intro d hd
    obtain ⟨e,hm,hde⟩ := List.mem_filterMap.mp hd
    exact (he e hm).2.1 d hde
  · intro clock
    rw [List.filterMap_eq_nil_iff]
    exact fun e hm => (he e hm).2.2 clock

theorem aside_andThen {self : EpgManager} {first : Outcome} {next : EpgManager → Outcome}
    (h : Aside self first) (h' : Aside first.1 (next first.1)) :
    Aside self (andThen first next) := by
  constructor
  · exact h'.expiryTimeSecs.trans h.expiryTimeSecs
  · exact h'.lastSaveTimeSecs.trans h.lastSaveTimeSecs
  · exact h'.lastSaveExpirySecs.trans h.lastSaveExpirySecs
  · rw [andThen_effects,List.filterMap_append,h.loads,h'.loads]
    rfl
  · intro d hd
    rw [andThen_effects,List.filterMap_append] at hd
    exact (List.mem_append.mp hd).elim (h.deletions d) (h'.deletions d)
  · intro clock
    rw [andThen_effects,List.filterMap_append,h.saves,h'.saves]
    rfl

theorem loadFile_aside (self : EpgManager) (clock : EpgClock) (file : StateFile)
    (data : Option (List UInt8)) (hf : StateFile.ofExpiry file = false) :
    Aside self (loadFile self clock file data).2 := by
  cases file with
  | usedCodes =>
    show Aside self (loadUsedCodes self data).2
    unfold loadUsedCodes
    cases usedCodesOfBytes (data.getD []) with
    | none =>
      refine aside_same self self (invalidData self .usedCodes).2 rfl rfl rfl ?_
      simp [invalidData,Effect.load,Effect.deletion,Effect.started]
    | some codes => exact aside_same self _ [] rfl rfl rfl (List.forall_mem_nil _)
  | key =>
    cases data with
    | none =>
      refine aside_same self { self with enabled := false, keyBytes := _ } [_] rfl rfl rfl ?_
      simp [Effect.load,Effect.deletion,Effect.started]
    | some bytes => exact aside_same self _ [] rfl rfl rfl (List.forall_mem_nil _)
  | accountId => cases data <;> exact aside_same self _ [] rfl rfl rfl (List.forall_mem_nil _)
  | _ => cases hf

theorem fileLoadCb_aside (self : EpgManager) (clock : EpgClock) (hadError : Bool)
    (file : StateFile) (result : LoadResult) (hf : StateFile.ofExpiry file = false) :
    Aside self (fileLoadCb self clock hadError file result) := by
  have herror (error : GIOError) : Aside self (self,[.taskReturnError error]) :=
    aside_same self self _ rfl rfl rfl (by simp [Effect.load,Effect.deletion,Effect.started])
  have hret (m : EpgManager) : Aside m (m,[.taskReturnBoolean]) :=
    aside_same m m _ rfl rfl rfl (by simp [Effect.load,Effect.deletion,Effect.started])
  cases hadError with
  | true => exact herror .failed
  | false =>
    rcases fileLoadCb_bytes self clock file result with ⟨e,-,hout⟩ | ⟨data,-,hout⟩
    · rw [hout]
      exact herror e
    · have hl := loadFile_aside self clock file data hf
      have hd (m : EpgManager) : Aside m (deduceExpiryTime m clock file) := by
        have hfile : file ≠ .clockTime ∧ file ≠ .expirySeconds := by
          constructor <;>
            rintro rfl <;>
            cases hf
        rw [deduceExpiryTime_other m clock file (Or.inr (Or.inr hfile))]
        exact aside_same m m [] rfl rfl rfl (List.forall_mem_nil _)
      rw [hout,updateFromFile]
      by_cases hok : (loadFile self clock file data).1 = true
      · rw [if_pos hok]
        exact aside_andThen (aside_andThen hl (hd _)) (hret _)
      · rw [if_neg hok]
        exact hl

def childFile (data : Option (List UInt8)) : StateFile :=
  if data = none then .expiryTime else .expirySeconds

def savedWord (data : Option (List UInt8)) : Option UInt64 :=
  if (data.getD []).length = 0 then none else some (wordOfBytes (data.getD []))

def legacySpan (clock : EpgClock) (data : Option (List UInt8)) : UInt64 :=
  (savedWord data).elim 0
    (fun secs => if secs > clock.wallclockTime then secs-clock.wallclockTime else 0)

def secondsSpan (clock : EpgClock) (timeSecs : Option UInt64) (data : Option (List UInt8)) :
    Option UInt64 :=
  match savedWord data with
  | none => some 0
  | some expirySecs => timeSecs.map (creditOnLoad · expirySecs clock.wallclockTime)

/-- The credit that the files of a directory give. -/
def creditSpan (clock : EpgClock) (files : Directory) : Option UInt64 :=
  if files .clockTime = none then some (legacySpan clock (files .expiryTime))
  else secondsSpan clock (savedWord (files .clockTime)) (files .expirySeconds)

def expiryOf (clock : EpgClock) (files : Directory) : UInt64 :=
  (creditSpan clock files).elim 0 (expiryAfter clock clock.time)

/-- A callback with which the decision ends: it starts no load, deletes at most
the expiry time in the old format, and saves what it has set. -/
structure Settles (clock : EpgClock) (expiry : UInt64) (out : Outcome) : Prop where
  expiryTimeSecs : out.1.expiryTimeSecs = expiry
  loads : out.2.filterMap Effect.load = []
  deletions : ∀ d ∈ out.2.filterMap Effect.deletion, d.file = .expiryTime
  saves : ∀ sv ∈ out.2.filterMap (Effect.started clock), sv.saved.clockTime = clock.wallclockTime ∧
    sv.saved.expirySeconds.toNat = expiry.toNat-clock.time.toNat

theorem outside_lists (effects : List Effect) (h : effects.all Effect.outside = true) :
    effects.filterMap Effect.load = [] ∧ effects.filterMap Effect.deletion = [] ∧
      ∀ clock, effects.filterMap (Effect.started clock) = [] := by
  have hout : ∀ e ∈ effects, Effect.outside e = true := List.all_eq_true.mp h
  simp only [List.filterMap_eq_nil_iff]
  refine ⟨?_,?_,?_⟩
  · intro e he
    cases e <;> first | rfl | cases hout _ he
  · intro e he
    cases e <;> first | rfl | cases hout _ he
  · intro clock e he
    cases e <;> first | rfl | cases hout _ he

theorem setExpiryTime_settles (self : EpgManager) (clock : EpgClock) (spanSecs : UInt64) :
    Settles clock (expiryAfter clock clock.time spanSecs)
      (setExpiryTime self clock true true clock.time spanSecs) := by
  have hx : (setExpiryTime self clock true true clock.time spanSecs).1.expiryTimeSecs =
      expiryAfter clock clock.time spanSecs := by
    rw [setExpiryTime_state]
  have hsaved := saveState_expirySeconds
    (setExpiryTime self clock true true clock.time spanSecs).1 clock
  rw [remaining,hx] at hsaved
  rcases setExpiryTime_starts self clock clock.time spanSecs with ⟨before,hb,he⟩
  obtain ⟨hl,hd,hs⟩ := outside_lists before hb
  constructor
  · exact hx
  · rw [he,List.filterMap_append,hl]
    split_ifs <;> rfl
  · rw [he,List.filterMap_append,hd]
    split_ifs <;> exact List.forall_mem_nil _
  · rw [he,List.filterMap_append,hs]
    split_ifs
    · intro sv hm
      rw [List.mem_singleton.mp hm]
      exact ⟨rfl,hsaved⟩
    · exact List.forall_mem_nil _

theorem settles_andThen {clock : EpgClock} {expiry : UInt64} {first : Outcome}
    (h : Settles clock expiry first) (next : EpgManager → List Effect)
    (hl : (next first.1).filterMap Effect.load = [])
    (hd : ∀ d ∈ (next first.1).filterMap Effect.deletion, d.file = .expiryTime)
    (hs : (next first.1).filterMap (Effect.started clock) = []) :
    Settles clock expiry (andThen first (fun m => (m,next m))) := by
  constructor
  · exact h.expiryTimeSecs
  · rw [andThen_effects,List.filterMap_append,h.loads,hl]
    rfl
  · intro d hm
    rw [andThen_effects,List.filterMap_append] at hm
    exact (List.mem_append.mp hm).elim (h.deletions d) (hd d)
  · intro sv hm
    rw [andThen_effects,List.filterMap_append,hs,List.append_nil] at hm
    exact h.saves sv hm

theorem updateFromFile_ok (self : EpgManager) (clock : EpgClock) (file : StateFile)
    (data : Option (List UInt8)) (out : Outcome) (h : loadFile self clock file data = (true,out)) :
    updateFromFile self clock file data = ((deduceExpiryTime out.1 clock file).1,
      (out.2++(deduceExpiryTime out.1 clock file).2)++[.taskReturnBoolean]) := by
  rw [updateFromFile,h]
  rfl

theorem savedWord_none {data : Option (List UInt8)} (h : (data.getD []).length = 0) :
    savedWord data = none := if_pos h

theorem savedWord_some {data : Option (List UInt8)} (h : (data.getD []).length ≠ 0) :
    savedWord data = some (wordOfBytes (data.getD [])) := if_neg h

theorem savedWord_wordBytes {data : Option (List UInt8)} {w : UInt64}
    (h : data = some (wordBytes w)) : savedWord data = some w := by
  subst h
  have h8 : (wordBytes w).length = 8 := wordBytes_length w
  have hne : ((some (wordBytes w)).getD []).length ≠ 0 := by
    show (wordBytes w).length ≠ 0
    omega
  rw [savedWord_some hne]
  exact congrArg some (wordOfBytes_wordBytes w)

theorem eightBytes_formed {data : Option (List UInt8)} {bytes : List UInt8}
    (hb : data = some bytes) (h8 : bytes.length = 8) (file : StateFile)
    (hf : StateFile.ofExpiry file = true) : ¬ MalformedData data file := by
  subst hb
  rintro ⟨o,ho,hmal⟩
  cases ho
  cases file <;> first | exact hmal.2 h8 | cases hf

theorem clockTime_formed (self : EpgManager) (clock : EpgClock) (data : Option (List UInt8))
    (h : ¬ MalformedData data .clockTime) (ht : self.lastSaveTimeSecs = none)
    (hx : self.lastSaveExpirySecs = none) :
    updateFromFile self clock .clockTime data =
      ({ self with lastSaveTimeSecs := savedWord data },
        [.taskIncrement, .loadContents (childFile data), .taskReturnBoolean]) := by
  rw [wordFile_malformed data .clockTime (fun _ => rfl)] at h
  have hload : loadFile self clock .clockTime data =
      (true,{ self with lastSaveTimeSecs := savedWord data },
        [.taskIncrement, .loadContents (childFile data)]) := by
    show loadWallclockTime self data = _
    unfold loadWallclockTime
    by_cases h0 : (data.getD []).length = 0
    · rw [if_pos h0,savedWord_none h0,← ht]
      rfl
    · rw [if_neg h0,if_neg (fun h8 => h ⟨h0,h8⟩),savedWord_some h0]
      rfl
  have hd : deduceExpiryTime { self with lastSaveTimeSecs := savedWord data } clock .clockTime =
      ({ self with lastSaveTimeSecs := savedWord data },[]) :=
    deduceExpiryTime_other _ clock _ (Or.inr (Or.inl hx))
  rw [updateFromFile_ok self clock .clockTime data _ hload,hd]
  rfl

theorem returned_settles {clock : EpgClock} {expiry : UInt64} {out : Outcome}
    (h : Settles clock expiry out) : Settles clock expiry (out.1,out.2++[.taskReturnBoolean]) :=
  settles_andThen h (fun _ => [.taskReturnBoolean]) rfl nofun rfl

theorem expiryTime_formed (self : EpgManager) (clock : EpgClock) (data : Option (List UInt8))
    (h : ¬ MalformedData data .expiryTime) :
    Settles clock (expiryAfter clock clock.time (legacySpan clock data))
      (updateFromFile self clock .expiryTime data) := by
  rw [wordFile_malformed data .expiryTime (fun _ => rfl)] at h
  have hother (m : EpgManager) : deduceExpiryTime m clock .expiryTime = (m,[]) :=
    deduceExpiryTime_other m clock _ (Or.inr (Or.inr (by decide)))
  have hfinish (out : Outcome) (hload : loadFile self clock .expiryTime data = (true,out))
      (hs : Settles clock (expiryAfter clock clock.time (legacySpan clock data)) out) :
      Settles clock (expiryAfter clock clock.time (legacySpan clock data))
        (updateFromFile self clock .expiryTime data) := by
    rw [updateFromFile_ok self clock .expiryTime data out hload,hother,List.append_nil]
    exact returned_settles hs
  by_cases h0 : (data.getD []).length = 0
  · have hspan : legacySpan clock data = 0 := by rw [legacySpan,savedWord_none h0]; rfl
    apply hfinish (setExpiryTime self clock true true clock.time 0)
    · show loadExpiryTime self clock data = _
      rw [loadExpiryTime,if_pos h0]
    · rw [hspan]
      exact setExpiryTime_settles self clock 0
  · apply hfinish (andThen (setExpiryTime self clock true true clock.time (legacySpan clock data))
      (fun m => (m,[.taskIncrement, .deleteFile .expiryTime])))
    · show loadExpiryTime self clock data = _
      rw [loadExpiryTime,if_neg h0,if_neg (fun h8 => h ⟨h0,h8⟩),legacySpan,savedWord_some h0]
      rfl
    · apply settles_andThen (setExpiryTime_settles self clock _)
        (fun _ => [.taskIncrement, .deleteFile .expiryTime]) rfl _ rfl
      intro d hm
      rw [List.mem_singleton.mp hm]

theorem expirySeconds_empty (self : EpgManager) (clock : EpgClock) (data : Option (List UInt8))
    (h0 : (data.getD []).length = 0) :
    loadFile self clock .expirySeconds data =
      (true,setExpiryTime self clock true true clock.time 0) := by
  show loadExpirySeconds self clock data = _
  rw [loadExpirySeconds,if_pos h0]

theorem expirySeconds_word (self : EpgManager) (clock : EpgClock) (data : Option (List UInt8))
    (h : ¬ MalformedData data .expirySeconds) (h0 : (data.getD []).length ≠ 0) :
    loadFile self clock .expirySeconds data =
      (true,{ self with lastSaveExpirySecs := some (wordOfBytes (data.getD [])) },[]) := by
  rw [wordFile_malformed data .expirySeconds (fun _ => rfl)] at h
  show loadExpirySeconds self clock data = _
  rw [loadExpirySeconds,if_neg h0,if_neg (fun h8 => h ⟨h0,h8⟩)]

theorem setExpiryTime_lastSave (self : EpgManager) (clock : EpgClock) (task save : Bool)
    (nowSecs spanSecs : UInt64) :
    (setExpiryTime self clock task save nowSecs spanSecs).1.lastSaveExpirySecs =
      self.lastSaveExpirySecs := by
  rw [setExpiryTime_state]

theorem expirySeconds_formed (self : EpgManager) (clock : EpgClock) (data : Option (List UInt8))
    (h : ¬ MalformedData data .expirySeconds) (hz : self.expiryTimeSecs = 0)
    (hx : self.lastSaveExpirySecs = none) :
    Settles clock ((secondsSpan clock self.lastSaveTimeSecs data).elim 0
        (expiryAfter clock clock.time))
      (updateFromFile self clock .expirySeconds data) := by
  by_cases h0 : (data.getD []).length = 0
  · have hset := (setExpiryTime_lastSave self clock true true clock.time 0).trans hx
    rw [updateFromFile_ok self clock .expirySeconds data _ (expirySeconds_empty self clock data h0),
      deduceExpiryTime_other _ clock _ (Or.inr (Or.inl hset)),List.append_nil,secondsSpan,
      savedWord_none h0]
    exact returned_settles (setExpiryTime_settles self clock 0)
  · obtain ⟨m,hload,hmt,hmx,hmz⟩ : ∃ m : EpgManager,
        loadFile self clock .expirySeconds data = (true,m,[]) ∧
          m.lastSaveTimeSecs = self.lastSaveTimeSecs ∧
          m.lastSaveExpirySecs = some (wordOfBytes (data.getD [])) ∧ m.expiryTimeSecs = 0 := by
      exact ⟨_,expirySeconds_word self clock data h h0,rfl,rfl,hz⟩
    rw [updateFromFile_ok self clock .expirySeconds data _ hload,secondsSpan,savedWord_some h0,
      ← hmt]
    cases ht : m.lastSaveTimeSecs with
    | none =>
      rw [deduceExpiryTime_other m clock _ (Or.inl ht)]
      exact ⟨hmz,rfl,List.forall_mem_nil _,List.forall_mem_nil _⟩
    | some timeSecs =>
      have hd : deduceExpiryTime m clock .expirySeconds = setExpiryTime m clock true true clock.time
          (creditOnLoad timeSecs (wordOfBytes (data.getD [])) clock.wallclockTime) := by
        simp [deduceExpiryTime,ht,hmx]
      rw [hd]
      exact returned_settles (setExpiryTime_settles m clock _)

/-- The file that the clock time calls for ends the decision with the expiry time
that the directory gives. -/
theorem childFile_settles (self : EpgManager) (clock : EpgClock) (files : Directory)
    (h : ¬ MalformedData (files (childFile (files .clockTime))) (childFile (files .clockTime)))
    (hz : self.expiryTimeSecs = 0) (ht : self.lastSaveTimeSecs = savedWord (files .clockTime))
    (hx : self.lastSaveExpirySecs = none) :
    Settles clock (expiryOf clock files) (updateFromFile self clock
      (childFile (files .clockTime)) (files (childFile (files .clockTime)))) := by
  unfold expiryOf creditSpan
  by_cases hc : files .clockTime = none
  · rw [if_pos hc]
    rw [childFile,if_pos hc] at h ⊢
    exact expiryTime_formed self clock (files .expiryTime) h
  · rw [if_neg hc,← ht]
    rw [childFile,if_neg hc] at h ⊢
    exact expirySeconds_formed self clock (files .expirySeconds) h hz hx

end EosPayg.ExpiryCallback
