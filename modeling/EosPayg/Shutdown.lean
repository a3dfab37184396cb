import EosPayg.ManagerCode
import EosPayg.SaveQueue

/-!
# Shutting down a manager

The saves a manager has started are kept with the newest first. Nothing
orders their file operations: each takes effect, fails and is called back at
any later moment. Shutdown counts the saves whose callbacks are to come and
answers with the result of the one that finishes last.
-/

set_option autoImplicit false

namespace EosPayg.Shutdown
open EosPayg.PaygCodes EosPayg.ManagerState EosPayg.ManagerCode EosPayg.ManagerFiles
  EosPayg.SaveQueue

/-- The part of `internal_save_state_cb` that concerns the manager; an answer
is given to the shutdown task when this was the last save it waits for. -/
def internalSaveStateCb (self : EpgManager) (result : Except GIOError Unit) :
    EpgManager × Option (Except GIOError Unit) :=
  if self.pendingInternalSaveStateCalls > 0 then
    let left := self.pendingInternalSaveStateCalls-1
    if left = 0 ∧ self.pendingShutdown ≠ none then
      ({ self with pendingInternalSaveStateCalls := left, pendingShutdown := none },some result)
    else ({ self with pendingInternalSaveStateCalls := left },none)
  else (self,none)

theorem internalSaveStateCb_kept (self : EpgManager) (result : Except GIOError Unit) :
    (internalSaveStateCb self result).1.expiryTimeSecs = self.expiryTimeSecs ∧
      (internalSaveStateCb self result).1.usedCodes = self.usedCodes ∧
      (internalSaveStateCb self result).1.cancelled = self.cancelled := by
  unfold internalSaveStateCb
  split_ifs
  · dsimp only
    split_ifs <;> exact ⟨rfl,rfl,rfl⟩
  · exact ⟨rfl,rfl,rfl⟩

def shutdownTask : ℕ := 1

inductive ShutdownStart where
  | refused (error : ProviderError)
  | saves
  | waits
  deriving DecidableEq

def shutdownAsync (self : EpgManager) : EpgManager × ShutdownStart :=
  if self.cancelled then (self,.refused cancelledError)
  else
    let stopped := { self with cancelled := true }
    if self.pendingInternalSaveStateCalls = 0 then (stopped,.saves)
    else ({ stopped with pendingShutdown := some shutdownTask },.waits)

structure System where
  manager : EpgManager
  clock : EpgClock
  files : Directory
  saves : List Save
  shutdown : Option (Except GIOError Unit)

inductive Operation where
  | addCode (codeStr : List UInt8)
  | clearCode
  | wallclockTimeChanged (delta : Int64)
  | timePasses (clock : EpgClock)
  | shutdown
  | takeEffect (i : ℕ) (f : SaveFile)
  | fail (i : ℕ) (f : SaveFile) (error : GIOError)
  | opCb (i : ℕ) (f : SaveFile)
  | saveCb (i : ℕ)
  deriving DecidableEq

def savesStarted (clock : EpgClock) (effects : List Effect) : List Save :=
  (effects.filterMap (fun e => match e with
    | .save saved forTask => some (saveStateAsync saved clock forTask false)
    | _ => none)).reverse

def serve (s : System) (out : Outcome) : System :=
  { s with manager := out.1, saves := savesStarted s.clock out.2 ++ s.saves }

def startShutdown (s : System) : System :=
  match (shutdownAsync s.manager).2 with
  | .saves =>
    { s with
      manager := (shutdownAsync s.manager).1
      saves := saveStateAsync (saveState s.manager s.clock) s.clock false true::s.saves }
  | _ => { s with manager := (shutdownAsync s.manager).1 }

def report (s : System) (i : ℕ) (sv : Save) (result : Except GIOError Unit) : System :=
  let saves := s.saves.set i { sv with reported := true }
  if sv.forShutdown then { s with saves := saves, shutdown := some result }
  else
    { s with
      saves := saves
      manager := (internalSaveStateCb s.manager result).1
      shutdown := (internalSaveStateCb s.manager result).2.or s.shutdown }

/-- The operations of the manager come before the shutdown. -/
def step (hmac : Hmac) (s : System) : Operation → Option System
  | .addCode codeStr =>
    if s.manager.cancelled then none
    else some (serve s (addCode hmac s.manager s.clock codeStr).2)
  | .clearCode =>
    if s.manager.cancelled then none else some (serve s (clearCode s.manager s.clock).2)
  | .wallclockTimeChanged delta =>
    if s.manager.cancelled then none
    else some (serve s (wallclockTimeChanged s.manager s.clock delta))
  | .timePasses clock => if s.clock.time ≤ clock.time then some { s with clock := clock } else none
  | .shutdown => if s.manager.cancelled then none else some (startShutdown s)
  | .takeEffect i f => do
    let sv ← s.saves[i]?
    let (sv',files') ← sv.takeEffect f s.files
    return { s with saves := s.saves.set i sv', files := files' }
  | .fail i f error => do
    let sv ← s.saves[i]?
    let sv' ← sv.fail f error
    return { s with saves := s.saves.set i sv' }
  | .opCb i f => do
    let sv ← s.saves[i]?
    let sv' ← sv.opCb f
    return { s with saves := s.saves.set i sv' }
  | .saveCb i => do
    let sv ← s.saves[i]?
    let result ← sv.result
    if sv.reported then none else return report s i sv result

def waiting (sv : Save) : Bool := !sv.forShutdown && !sv.reported

def quiet (manager : EpgManager) (clock : EpgClock) (files : Directory) : System :=
  ⟨manager, clock, files, [], none⟩

/-- What an operation of the manager may do to its saves: nothing, while what
is to be saved stays, or start one save of what it leaves. -/
structure Serves (clock : EpgClock) (m : EpgManager) (out : Outcome) : Prop where
  cancelled : out.1.cancelled = m.cancelled
  pendingShutdown : out.1.pendingShutdown = m.pendingShutdown
  saves : (savesStarted clock out.2 = [] ∧
      out.1.pendingInternalSaveStateCalls = m.pendingInternalSaveStateCalls ∧
      ∀ c, saveState out.1 c = saveState m c) ∨
    (savesStarted clock out.2 = [saveStateAsync (saveState out.1 clock) clock false false] ∧
      out.1.pendingInternalSaveStateCalls = m.pendingInternalSaveStateCalls+1)

theorem savesStarted_append (clock : EpgClock) (as bs : List Effect) :
    savesStarted clock (as++bs) = savesStarted clock bs ++ savesStarted clock as := by
  simp [savesStarted]

theorem savesStarted_ofTimer (clock : EpgClock) (effects : List Effect)
    (h : effects.all Effect.ofTimer = true) : savesStarted clock effects = [] := by
  unfold savesStarted
  rw [List.reverse_eq_nil_iff,List.filterMap_eq_nil_iff]
  intro e he
  have ht := List.all_eq_true.mp h e he
  cases e <;> first | rfl | cases ht

theorem savesStarted_clearRateLimiting (clock : EpgClock) (self : EpgManager) :
    savesStarted clock (clearRateLimiting self).2 = [] := by
  unfold clearRateLimiting
  split_ifs <;> rfl

theorem savesStarted_setExpiryTime (clock : EpgClock) (self : EpgManager) (task : Bool)
    (nowSecs spanSecs : UInt64) :
    savesStarted clock (setExpiryTime self clock task false nowSecs spanSecs).2 = [] := by
  rcases setExpiryTime_effects self clock task false nowSecs spanSecs with ⟨before,hb,he⟩
  rw [he,savesStarted_append,savesStarted_ofTimer clock before hb]
  split_ifs with h hf
  · cases hf
  · rfl
  · rfl

theorem saved_serves (clock : EpgClock) (self : EpgManager) (first : Outcome)
    (hf : savesStarted clock first.2 = []) (hc : first.1.cancelled = self.cancelled)
    (hs : first.1.pendingShutdown = self.pendingShutdown)
    (hp : first.1.pendingInternalSaveStateCalls = self.pendingInternalSaveStateCalls) :
    Serves clock self (andThen first (fun m => internalSave m clock false)) := by
  constructor
  · exact hc
  · exact hs
  · right
    constructor
    · rw [andThen_effects,savesStarted_append,hf]
      rfl
    · show first.1.pendingInternalSaveStateCalls+1 = _
      rw [hp]

theorem addCode_serves (hmac : Hmac) (self : EpgManager) (clock : EpgClock)
    (codeStr : List UInt8) : Serves clock self (addCode hmac self clock codeStr).2 := by
  cases h : acceptedCode hmac self clock codeStr with
  | none =>
    have hstate := (addCode_refused hmac self clock codeStr h).2
    have heff := addCode_refused_effects hmac self clock codeStr h
    constructor
    · rw [hstate]
      split_ifs <;> rfl
    · rw [hstate]
      split_ifs <;> rfl
    · left
      constructor
      · rcases heff with he | he <;> rw [he] <;> rfl
      · rw [hstate]
        split_ifs <;> exact ⟨rfl,fun _ => rfl⟩
  | some used =>
    rw [addCode_accepted hmac self clock codeStr used h]
    apply saved_serves
    · rw [andThen_effects,savesStarted_append]
      rw [extendExpiryTime,savesStarted_setExpiryTime,savesStarted_clearRateLimiting]
      rfl
    · simp only [extendExpiryTime,andThen_state,clearRateLimiting,setExpiryTime_state]
      rfl
    · simp only [extendExpiryTime,andThen_state,clearRateLimiting,setExpiryTime_state]
      rfl
    · simp only [extendExpiryTime,andThen_state,clearRateLimiting,setExpiryTime_state]
      simp [recordAttempt]

theorem clearCode_serves (self : EpgManager) (clock : EpgClock) :
    Serves clock self (clearCode self clock).2 := by
  rcases clearCode_cases self clock with ⟨he,hn⟩ | h
  · rw [clearCode_ok self clock he hn]
    apply saved_serves
    · rw [andThen_effects,savesStarted_append]
      unfold zeroExpiryTime clearExpiryTimer
      split <;> split_ifs <;> rfl
    all_goals
      rw [andThen_state,clearExpiryTimer_state]
      unfold zeroExpiryTime
      split_ifs <;> rfl
  · rw [h]
    exact ⟨rfl,rfl,Or.inl ⟨rfl,rfl,fun _ => rfl⟩⟩

theorem wallclockTimeChanged_serves (self : EpgManager) (clock : EpgClock) (delta : Int64) :
    Serves clock self (wallclockTimeChanged self clock delta) := by
  unfold wallclockTimeChanged
  by_cases hz : delta = 0
  · rw [if_pos hz]
    exact ⟨rfl,rfl,Or.inl ⟨rfl,rfl,fun _ => rfl⟩⟩
  · rw [if_neg hz,consumeJump_eq]
    split_ifs
    · apply saved_serves
      · exact savesStarted_setExpiryTime _ _ _ _ _
      · rw [setExpiryTime_state]
      · rw [setExpiryTime_state]
      · rw [setExpiryTime_state]
        simp
    · exact saved_serves clock self (self,[]) rfl rfl rfl rfl
    · exact saved_serves clock self (self,[]) rfl rfl rfl rfl

end EosPayg.Shutdown
