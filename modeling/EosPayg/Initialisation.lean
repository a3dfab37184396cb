import EosPayg.LoadCallback
import EosPayg.Shutdown
import EosPayg.RecordList

/-!
# Initialisation and what its task waits for

Initialisation loads the state files side by side. Each load reads its file at
some moment and is called back at some later one; a callback may start further
loads, deletions, and a save of what is in memory by then. The task counts what
is started, and every callback still to come is accounted for.
-/

set_option autoImplicit false

namespace EosPayg.Initialisation
open EosPayg.ManagerState EosPayg.ManagerFiles EosPayg.MultiTask EosPayg.SaveQueue
  EosPayg.LoadCallback EosPayg.GuardedRun EosPayg.RecordList
open EosPayg.ExpiryTimer (loadedBytes)
open EosPayg.Shutdown (internalSaveStateCb)

inductive LoadStatus where
  | inFlight
  | read (result : LoadResult)
  | called
  deriving DecidableEq

structure Load where
  file : StateFile
  status : LoadStatus
  deriving DecidableEq

structure Deletion where
  file : StateFile
  status : Status
  deriving DecidableEq

/-- The manager, its initialisation task with the task data, and everything
that was started for it. -/
structure System where
  manager : EpgManager
  clock : EpgClock
  files : Directory
  task : GTask GIOError Unit
  taskData : Option GIOError
  loads : List Load
  deletions : List Deletion
  saves : List Save

def initAsync (self : EpgManager) (clock : EpgClock) (files : Directory) : System where
  manager := self
  clock := clock
  files := files
  task := returnBoolean (attached 5) true
  taskData := none
  loads := [⟨.clockTime, .inFlight⟩, ⟨.usedCodes, .inFlight⟩, ⟨.key, .inFlight⟩,
    ⟨.accountId, .inFlight⟩]
  deletions := []
  saves := []

def perform (s : System) : Effect → System
  | .taskIncrement => { s with task := increment s.task }
  | .taskReturnBoolean => { s with task := returnBoolean s.task true }
  | .taskReturnError error => { s with task := returnError s.task error }
  | .taskSetData error => { s with taskData := some error }
  | .loadContents file => { s with loads := s.loads ++ [⟨file, .inFlight⟩] }
  | .deleteFile file => { s with deletions := s.deletions ++ [⟨file, .inFlight⟩] }
  | .save saved forTask =>
    { s with saves := s.saves ++ [saveStateAsync saved s.clock forTask false] }
  | _ => s

def performAll (s : System) (effects : List Effect) : System := effects.foldl perform s

def Effect.load : Effect → Option Load
  | .loadContents file => some ⟨file, .inFlight⟩
  | _ => none

def Effect.deletion : Effect → Option Deletion
  | .deleteFile file => some ⟨file, .inFlight⟩
  | _ => none

def Effect.started (clock : EpgClock) : Effect → Option Save
  | .save saved forTask => some (saveStateAsync saved clock forTask false)
  | _ => none

inductive Operation where
  | timePasses (clock : EpgClock)
  | read (i : ℕ)
  | readFails (i : ℕ) (error : GIOError)
  | loadCb (i : ℕ)
  | delete (i : ℕ)
  | deleteFails (i : ℕ) (error : GIOError)
  | deleteCb (i : ℕ)
  | takeEffect (i : ℕ) (f : SaveFile)
  | fail (i : ℕ) (f : SaveFile) (error : GIOError)
  | opCb (i : ℕ) (f : SaveFile)
  | saveCb (i : ℕ)
  deriving DecidableEq

def setLoad (s : System) (i : ℕ) (l : Load) (status : LoadStatus) : System :=
  { s with loads := s.loads.set i { l with status := status } }

def setDeletion (s : System) (i : ℕ) (d : Deletion) (status : Status) : System :=
  { s with deletions := s.deletions.set i { d with status := status } }

/-- The callback of a load runs `file_load_cb`: the state in which it begins to act, and
what it does. -/
def loadActs (s : System) (i : ℕ) (l : Load) (result : LoadResult) : System × List Effect :=
  let out := fileLoadCb s.manager s.clock (gTaskHadError s.task) l.file result
  ({ setLoad s i l .called with manager := out.1 }, out.2)

def deleteActs (s : System) (i : ℕ) (d : Deletion) (error : Option GIOError) :
    System × List Effect :=
  (setDeletion s i d (.called error), [fileLoadDeleteCb s.taskData error])

def reportEffects (forTask : Bool) (result : Except GIOError Unit) : List Effect :=
  if forTask then
    match result with
    | .ok _ => [.taskReturnBoolean]
    | .error error => [.taskReturnError error]
  else []

def setReported (s : System) (i : ℕ) (sv : Save) (self : EpgManager) : System :=
  { s with saves := s.saves.set i { sv with reported := true }, manager := self }

def saveActs (s : System) (i : ℕ) (sv : Save) (result : Except GIOError Unit) :
    System × List Effect :=
  (setReported s i sv (internalSaveStateCb s.manager result).1, reportEffects sv.forTask result)

def acted (acts : System × List Effect) : System := performAll acts.1 acts.2

def loadCb (s : System) (i : ℕ) (l : Load) (result : LoadResult) : System :=
  acted (loadActs s i l result)

def deleteCb (s : System) (i : ℕ) (d : Deletion) (error : Option GIOError) : System :=
  acted (deleteActs s i d error)

def saveCb (s : System) (i : ℕ) (sv : Save) (result : Except GIOError Unit) : System :=
  acted (saveActs s i sv result)

def step (s : System) : Operation → Option System
  | .timePasses clock => if s.clock.time ≤ clock.time then some { s with clock := clock } else none
  | .read i => do
    let l ← s.loads[i]?
    if l.status = .inFlight then return setLoad s i l (.read (loadContents s.files l.file))
    else none
  | .readFails i error => do
    let l ← s.loads[i]?
    if l.status = .inFlight ∧ error ≠ .notFound then
      return setLoad s i l (.read (.failed error))
    else none
  | .loadCb i => do
    let l ← s.loads[i]?
    match l.status with
    | .read result => return loadCb s i l result
    | _ => none
  | .delete i => do
    let d ← s.deletions[i]?
    if d.status = .inFlight then
      return { setDeletion s i d (.done (FileOp.run (.delete d.file) s.files).1) with
        files := (FileOp.run (.delete d.file) s.files).2 }
    else none
  | .deleteFails i error => do
    let d ← s.deletions[i]?
    if d.status = .inFlight then return setDeletion s i d (.done (some error)) else none
  | .deleteCb i => do
    let d ← s.deletions[i]?
    match d.status with
    | .done error => return deleteCb s i d error
    | _ => none
  | .takeEffect i f => do
    let sv ← s.saves[i]?
    let (sv',files') ← sv.takeEffect f s.files
    return { s with saves := s.saves.set i sv', files := files' }
  | .fail i f error => do
    let sv ← s.saves[i]?
    let sv' ← sv.fail f error
    return { s with saves := s.saves.set i sv' }
  | .opCb i f => do
    let sv ← s.saves[i]?
    let sv' ← sv.opCb f
    return { s with saves := s.saves.set i sv' }
  | .saveCb i => do
    let sv ← s.saves[i]?
    let result ← sv.result
    if sv.reported then none else return saveCb s i sv result

/-- What a step can do, with what it requires. -/
inductive Stepped (s : System) : Operation → System → Prop where
  | timePasses (clock : EpgClock) (h : s.clock.time ≤ clock.time) :
    Stepped s (.timePasses clock) { s with clock := clock }
  | read (i : ℕ) (l : Load) (hi : s.loads[i]? = some l) (hf : l.status = .inFlight) :
    Stepped s (.read i) (setLoad s i l (.read (loadContents s.files l.file)))
  | readFails (i : ℕ) (error : GIOError) (l : Load) (hi : s.loads[i]? = some l)
    (hf : l.status = .inFlight) (he : error ≠ .notFound) :
    Stepped s (.readFails i error) (setLoad s i l (.read (.failed error)))
  | loadCb (i : ℕ) (l : Load) (result : LoadResult) (hi : s.loads[i]? = some l)
    (hl : l.status = .read result) : Stepped s (.loadCb i) (loadCb s i l result)
  | delete (i : ℕ) (d : Deletion) (hi : s.deletions[i]? = some d) (hf : d.status = .inFlight) :
    Stepped s (.delete i)
      { setDeletion s i d (.done (FileOp.run (.delete d.file) s.files).1) with
        files := (FileOp.run (.delete d.file) s.files).2 }
  | deleteFails (i : ℕ) (error : GIOError) (d : Deletion) (hi : s.deletions[i]? = some d)
    (hf : d.status = .inFlight) :
    Stepped s (.deleteFails i error) (setDeletion s i d (.done (some error)))
  | deleteCb (i : ℕ) (d : Deletion) (error : Option GIOError) (hi : s.deletions[i]? = some d)
    (hd : d.status = .done error) : Stepped s (.deleteCb i) (deleteCb s i d error)
  | takeEffect (i : ℕ) (f : SaveFile) (sv sv' : Save) (files' : Directory)
    (hi : s.saves[i]? = some sv) (he : sv.takeEffect f s.files = some (sv',files')) :
    Stepped s (.takeEffect i f) { s with saves := s.saves.set i sv', files := files' }
  | fail (i : ℕ) (f : SaveFile) (error : GIOError) (sv sv' : Save) (hi : s.saves[i]? = some sv)
    (he : sv.fail f error = some sv') :
    Stepped s (.fail i f error) { s with saves := s.saves.set i sv' }
  | opCb (i : ℕ) (f : SaveFile) (sv sv' : Save) (hi : s.saves[i]? = some sv)
    (he : sv.opCb f = some sv') : Stepped s (.opCb i f) { s with saves := s.saves.set i sv' }
  | saveCb (i : ℕ) (sv : Save) (result : Except GIOError Unit) (hi : s.saves[i]? = some sv)
    (hresult : sv.result = some result) (hr : sv.reported = false) :
    Stepped s (.saveCb i) (saveCb s i sv result)

theorem step_cases (s s' : System) (op : Operation) (hs : step s op = some s') :
    Stepped s op s' := by
  cases op with
  | timePasses clock =>
    simp only [step] at hs
    split_ifs at hs with h
    cases hs
    exact .timePasses clock h
  | read i =>
    simp only [step,bind,Option.bind_eq_some_iff] at hs
    rcases hs with ⟨l,hi,hs⟩
    split_ifs at hs with hf
    cases hs
    exact .read i l hi hf
  | readFails i error =>
    simp only [step,bind,Option.bind_eq_some_iff] at hs
    rcases hs with ⟨l,hi,hs⟩
    split_ifs at hs with hf
    cases hs
    exact .readFails i error l hi hf.1 hf.2
  | loadCb i =>
    simp only [step,bind,Option.bind_eq_some_iff] at hs
    rcases hs with ⟨l,hi,hs⟩
    cases hl : l.status with
    | inFlight => simp [hl] at hs
    | called => simp [hl] at hs
    | read result =>
      simp only [hl] at hs
      cases hs
      exact .loadCb i l result hi hl
  | delete i =>
    simp only [step,bind,Option.bind_eq_some_iff] at hs
    rcases hs with ⟨d,hi,hs⟩
    split_ifs at hs with hf
    cases hs
    exact .delete i d hi hf
  | deleteFails i error =>
    simp only [step,bind,Option.bind_eq_some_iff] at hs
    rcases hs with ⟨d,hi,hs⟩
    split_ifs at hs with hf
    cases hs
    exact .deleteFails i error d hi hf
  | deleteCb i =>
    simp only [step,bind,Option.bind_eq_some_iff] at hs
    rcases hs with ⟨d,hi,hs⟩
    cases hd : d.status with
    | inFlight => simp [hd] at hs
    | called error => simp [hd] at hs
    | done error =>
      simp only [hd] at hs
      cases hs
      exact .deleteCb i d error hi hd
  | takeEffect i f =>
    simp only [step,bind,Option.bind_eq_some_iff] at hs
    rcases hs with ⟨sv,hi,⟨sv',files'⟩,he,⟨⟩⟩
    exact .takeEffect i f sv sv' files' hi he
  | fail i f error =>
    simp only [step,bind,Option.bind_eq_some_iff] at hs
    rcases hs with ⟨sv,hi,sv',he,⟨⟩⟩
    exact .fail i f error sv sv' hi he
  | opCb i f =>
    simp only [step,bind,Option.bind_eq_some_iff] at hs
    rcases hs with ⟨sv,hi,sv',he,⟨⟩⟩
    exact .opCb i f sv sv' hi he
  | saveCb i =>
    simp only [step,bind,Option.bind_eq_some_iff] at hs
    rcases hs with ⟨sv,hi,result,hresult,hs⟩
    split_ifs at hs with hr
    cases hs
    exact .saveCb i sv result hi hresult (by simpa using hr)

def Initialised (s : System) : Prop := ∃ v, .ok v ∈ s.task.returned

def Load.isCalled (l : Load) : Bool := l.status = .called

def Load.bytes (l : Load) : Option (Option (List UInt8)) :=
  match l.status with
  | .read result => loadedBytes result
  | _ => none

def usedCodesLoaded (s : System) : Bool :=
  s.loads.any (fun l => l.file = .usedCodes && l.isCalled)

def outstanding (s : System) : ℕ :=
  s.loads.countP (fun l => !l.isCalled) + s.deletions.countP (fun d => !d.status.isCalled) +
    s.saves.countP (fun sv => sv.forTask && !sv.reported)

theorem inFlight_uncalled {l : Load} (h : l.status = .inFlight) : l.isCalled = false := by
  rw [Load.isCalled,h]
  rfl

theorem read_uncalled {l : Load} {result : LoadResult} (h : l.status = .read result) :
    l.isCalled = false := by
  rw [Load.isCalled,h]
  rfl

def Load.weight (l : Load) : ℕ := if l.isCalled then 0 else LoadCallback.weight l.file

def weights (s : System) : ℕ := (s.loads.map Load.weight).sum

/-- The accounts of the task, inside a callback that holds some units and may
still take some: every operation started has a unit, the count stays far from
its limit, and a success was returned only when nothing was pending. -/
structure Accounts (s : System) (units budget : ℕ) : Prop where
  live : s.task.cancelled = false
  owed : outstanding s+units ≤ s.task.pending
  bounded : s.task.pending+weights s+budget ≤ 19
  finished : Initialised s → s.task.pending = 0 ∧ s.task.errorReturned = false

theorem returnBoolean_task (t : GTask GIOError Unit) (h : 0 < t.pending)
    (hl : t.cancelled = false) :
    (returnBoolean t true).cancelled = t.cancelled ∧
      (returnBoolean t true).pending = t.pending-1 ∧
      (returnBoolean t true).errorReturned = t.errorReturned ∧
      (∀ v, .ok v ∈ (returnBoolean t true).returned → .ok v ∈ t.returned ∨
        (t.pending = 1 ∧ t.errorReturned = false)) := by
  rw [returnBoolean_open t true h hl]
  split_ifs with hz
  · exact ⟨rfl,rfl,rfl,fun v _ => Or.inr hz⟩
  · exact ⟨rfl,rfl,rfl,fun v hv => Or.inl hv⟩

theorem returnError_task (t : GTask GIOError Unit) (error : GIOError) (h : 0 < t.pending)
    (hl : t.cancelled = false) :
    (returnError t error).cancelled = t.cancelled ∧
      (returnError t error).pending = t.pending-1 ∧
      (returnError t error).errorReturned = true ∧
      (∀ v, .ok v ∈ (returnError t error).returned → .ok v ∈ t.returned) := by
  rw [returnError_open t error h hl]
  split_ifs with he
  · exact ⟨rfl,rfl,he,fun v hv => hv⟩
  · constructor
    · rfl
    · exact ⟨rfl,rfl,fun v hv => by simpa [gTaskReturnError,release] using hv⟩

theorem spend_take {units units' : ℕ} {e : Effect} (he : Effect.takesUnit e = true)
    (h : spend units e = some units') : 0 < units ∧ units' = units-1 := by
  have hne : e ≠ .taskIncrement := by
    intro hh
    rw [hh] at he
    cases he
  rw [spend,if_neg hne,if_pos he] at h
  split_ifs at h with hu
  cases h
  exact ⟨hu,rfl⟩

theorem spend_keep {units units' : ℕ} {e : Effect} (he : Effect.takesUnit e = false)
    (hne : e ≠ .taskIncrement) (h : spend units e = some units') : units' = units := by
  rw [spend,if_neg hne,he] at h
  cases h
  rfl

theorem returned_accounts {s : System} {units budget : ℕ} (h : Accounts s units budget)
    (hu : 0 < units) (t : GTask GIOError Unit) (hc : t.cancelled = s.task.cancelled)
    (hp : t.pending = s.task.pending-1)
    (hf : Initialised { s with task := t } → t.pending = 0 ∧ t.errorReturned = false) :
    Accounts { s with task := t } (units-1) budget := by
  have howed := h.owed
  have hbound := h.bounded
  constructor
  · exact hc.trans h.live
  · show outstanding s+(units-1) ≤ t.pending
    omega
  · show t.pending+weights s+budget ≤ 19
    omega
  · exact hf

theorem unfinished {s : System} {units budget : ℕ} (h : Accounts s units budget)
    (hu : 0 < units) : ¬ Initialised s := by
  intro hi
  have := (h.finished hi).1
  have := h.owed
  omega

theorem returnBoolean_accounts {s : System} {units budget : ℕ} (h : Accounts s units budget)
    (hu : 0 < units) :
    Accounts { s with task := returnBoolean s.task true } (units-1) budget := by
  have howed := h.owed
  rcases returnBoolean_task s.task (by omega) h.live with ⟨hc,hp,he,hr⟩
  apply returned_accounts h hu _ hc hp
  rintro ⟨v,hv⟩
  rcases hr v hv with hold | ⟨h1,h2⟩
  · exact absurd ⟨v,hold⟩ (unfinished h hu)
  · rw [hp,he,h1]
    exact ⟨rfl,h2⟩

theorem returnError_accounts {s : System} {units budget : ℕ} (h : Accounts s units budget)
    (hu : 0 < units) (error : GIOError) :
    Accounts { s with task := returnError s.task error } (units-1) budget := by
  have howed := h.owed
  rcases returnError_task s.task error (by omega) h.live with ⟨hc,hp,he,hr⟩
  apply returned_accounts h hu _ hc hp
  rintro ⟨v,hv⟩
  exact absurd ⟨v,hr v hv⟩ (unfinished h hu)

theorem started_accounts {s s' : System} {units budget extra : ℕ}
    (h : Accounts s units (extra+budget)) (hu : 0 < units) (ht : s'.task = s.task)
    (ho : outstanding s' = outstanding s+1) (hw : weights s' = weights s+extra) :
    Accounts s' (units-1) budget := by
  have howed := h.owed
  have hbound := h.bounded
  constructor
  · rw [ht]
    exact h.live
  · rw [ho,ht]
    omega
  · rw [hw,ht]
    omega
  · intro hi
    rw [ht]
    apply h.finished
    unfold Initialised at hi
    rwa [ht] at hi

theorem same_accounts {s s' : System} {units budget : ℕ} (h : Accounts s units budget)
    (ht : s'.task = s.task) (ho : outstanding s' = outstanding s)
    (hw : weights s' = weights s) : Accounts s' units budget := by
  constructor
  · rw [ht]
    exact h.live
  · rw [ho,ht]
    exact h.owed
  · rw [hw,ht]
    exact h.bounded
  · intro hi
    rw [ht]
    apply h.finished
    unfold Initialised at hi
    rwa [ht] at hi

theorem spend_increment {units units' : ℕ} (h : spend units .taskIncrement = some units') :
    0 < units ∧ units' = units+1 := by
  rw [spend,if_pos rfl] at h
  split_ifs at h with hu
  cases h
  exact ⟨hu,rfl⟩

theorem load_outstanding (s : System) (file : StateFile) :
    outstanding (perform s (.loadContents file)) = outstanding s+1 := by
  simp only [outstanding,perform,List.countP_append,List.countP_singleton]
  show _+1+_+_ = _
  omega

theorem deletion_outstanding (s : System) (file : StateFile) :
    outstanding (perform s (.deleteFile file)) = outstanding s+1 := by
  simp only [outstanding,perform,List.countP_append,List.countP_singleton]
  show _+(_+1)+_ = _
  omega

theorem save_outstanding (s : System) (saved : SavedState) (forTask : Bool) :
    outstanding (perform s (.save saved forTask)) = outstanding s+(if forTask then 1 else 0) := by
  simp only [outstanding,perform,List.countP_append,List.countP_singleton]
  cases forTask <;> rfl

theorem increment_accounts {s : System} {units budget : ℕ} (h : Accounts s units (1+budget))
    (hu : 0 < units) : Accounts (perform s .taskIncrement) (units+1) budget := by
  have howed := h.owed
  have hbound := h.bounded
  have hm : maxUint = 4294967295 := rfl
  have ht := increment_open s.task (by omega) (by omega)
  show Accounts { s with task := increment s.task } (units+1) budget
  rw [ht]
  constructor
  · exact h.live
  · show outstanding s+(units+1) ≤ s.task.pending+1
    omega
  · show s.task.pending+1+weights s+budget ≤ 19
    omega
  · intro hi
    exact absurd (show Initialised s from hi) (unfinished h hu)

/-- Each effect moves units the way `spend` says. -/
theorem perform_accounts (s : System) (e : Effect) (units units' budget : ℕ)
    (h : Accounts s units (Effect.cost e+budget)) (hs : spend units e = some units') :
    Accounts (perform s e) units' budget := by
  have h0 : ∀ n, Accounts s units (0+n) → Accounts s units n := by
    intro n hn
    rwa [Nat.zero_add] at hn
  cases e with
  | taskIncrement =>
    obtain ⟨hu,hu'⟩ := spend_increment hs
    rw [hu']
    exact increment_accounts h hu
  | taskReturnBoolean =>
    rcases spend_take rfl hs with ⟨hu,rfl⟩
    exact returnBoolean_accounts (h0 _ h) hu
  | taskReturnError error =>
    rcases spend_take rfl hs with ⟨hu,rfl⟩
    exact returnError_accounts (h0 _ h) hu error
  | loadContents file =>
    rcases spend_take rfl hs with ⟨hu,rfl⟩
    refine started_accounts h hu rfl (load_outstanding s file) ?_
    simp only [weights,perform,List.map_append,List.sum_append,List.map_singleton,
      List.sum_singleton]
    rfl
  | deleteFile file =>
    rcases spend_take rfl hs with ⟨hu,rfl⟩
    exact started_accounts h hu rfl (deletion_outstanding s file) rfl
  | save saved forTask =>
    have hout := save_outstanding s saved forTask
    cases forTask with
    | true =>
      rcases spend_take rfl hs with ⟨hu,rfl⟩
      exact started_accounts h hu rfl hout rfl
    | false =>
      rw [spend_keep rfl (by simp) hs]
      exact same_accounts (h0 _ h) rfl hout rfl
  | taskSetData error =>
    rw [spend_keep rfl (by simp) hs]
    exact same_accounts (h0 _ h) rfl rfl rfl
  | notify property seen =>
    rw [spend_keep rfl (by simp) hs]
    exact h0 _ h
  | expired seen =>
    rw [spend_keep rfl (by simp) hs]
    exact h0 _ h
  | sourceDestroy =>
    rw [spend_keep rfl (by simp) hs]
    exact h0 _ h
  | sourceAttach interval =>
    rw [spend_keep rfl (by simp) hs]
    exact h0 _ h

theorem performAll_accounts (effects : List Effect) (s : System) (units units' : ℕ)
    (h : Accounts s units (costs effects)) (hs : run spend effects units = some units') :
    Accounts (performAll s effects) units' 0 := by
  induction effects generalizing s units with
  | nil =>
    cases hs
    exact h
  | cons e es ih =>
    rcases run_cons.mp hs with ⟨mid,he,hes⟩
    exact ih (perform s e) mid (perform_accounts s e units mid (costs es) h he) hes

theorem performAll_lists (effects : List Effect) (s : System) :
    (performAll s effects).loads = s.loads++effects.filterMap Effect.load ∧
      (performAll s effects).deletions = s.deletions++effects.filterMap Effect.deletion ∧
      (performAll s effects).saves = s.saves++effects.filterMap (Effect.started s.clock) ∧
      (performAll s effects).clock = s.clock := by
  induction effects generalizing s with
  | nil => exact ⟨(List.append_nil _).symm,(List.append_nil _).symm,(List.append_nil _).symm,rfl⟩
  | cons e es ih =>
    obtain ⟨hl,hd,hs,hc⟩ := ih (perform s e)
    show (performAll (perform s e) es).loads = _ ∧ (performAll (perform s e) es).deletions = _ ∧
      (performAll (perform s e) es).saves = _ ∧ (performAll (perform s e) es).clock = _
    rw [hl,hd,hs,hc]
    cases e with
    | loadContents file =>
      refine ⟨?_,rfl,rfl,rfl⟩
      exact List.append_assoc s.loads [_] _
    | deleteFile file =>
      refine ⟨rfl,?_,rfl,rfl⟩
      exact List.append_assoc s.deletions [_] _
    | save saved forTask =>
      refine ⟨rfl,rfl,?_,rfl⟩
      exact List.append_assoc s.saves [_] _
    | _ => exact ⟨rfl,rfl,rfl,rfl⟩

/-- Effects only add operations, and never take an error back. -/
structure Extends (s s' : System) : Prop where
  manager : s'.manager = s.manager
  files : s'.files = s.files
  loads : ∃ new, s'.loads = s.loads ++ new ∧ ∀ l ∈ new, l.status = .inFlight
  error : s'.task.errorReturned = false → s.task.errorReturned = false

theorem extends_refl (s : System) : Extends s s :=
  ⟨rfl,rfl,⟨[],(List.append_nil _).symm,nofun⟩,id⟩

theorem extends_trans {s m t : System} (h : Extends s m) (h' : Extends m t) : Extends s t := by
  rcases h.loads with ⟨as,ha,has⟩
  rcases h'.loads with ⟨bs,hb,hbs⟩
  constructor
  · exact h'.manager.trans h.manager
  · exact h'.files.trans h.files
  · use as ++ bs
    constructor
    · rw [hb,ha,List.append_assoc]
    · intro l hl
      exact (List.mem_append.mp hl).elim (has l) (hbs l)
  · exact fun hh => h.error (h'.error hh)

theorem extends_task (s : System) (t : GTask GIOError Unit)
    (h : t.errorReturned = false → s.task.errorReturned = false) :
    Extends s { s with task := t } :=
  ⟨rfl,rfl,⟨[],(List.append_nil _).symm,nofun⟩,h⟩

theorem perform_extends (s : System) (e : Effect) : Extends s (perform s e) := by
  cases e with
  | taskIncrement =>
    apply extends_task
    unfold increment
    split_ifs <;> exact id
  | taskReturnBoolean =>
    apply extends_task
    unfold returnBoolean
    split_ifs <;> exact id
  | taskReturnError error =>
    apply extends_task
    unfold returnError gTaskReturnError
    split_ifs
    · exact id
    · exact nofun
    · exact id
  | loadContents file => exact ⟨rfl,rfl,⟨[⟨file, .inFlight⟩],rfl,by simp⟩,id⟩
  | deleteFile file => exact ⟨rfl,rfl,⟨[],(List.append_nil _).symm,nofun⟩,id⟩
  | save saved forTask => exact ⟨rfl,rfl,⟨[],(List.append_nil _).symm,nofun⟩,id⟩
  | taskSetData error => exact ⟨rfl,rfl,⟨[],(List.append_nil _).symm,nofun⟩,id⟩
  | notify property seen => exact extends_refl s
  | expired seen => exact extends_refl s
  | sourceDestroy => exact extends_refl s
  | sourceAttach interval => exact extends_refl s

theorem performAll_extends (effects : List Effect) (s : System) :
    Extends s (performAll s effects) := by
  induction effects generalizing s with
  | nil => exact extends_refl s
  | cons e es ih => exact extends_trans (perform_extends s e) (ih (perform s e))

theorem extends_loaded {s s' : System} (h : Extends s s') (file : StateFile) :
    s'.loads.any (fun l => l.file = file && l.isCalled) =
      s.loads.any (fun l => l.file = file && l.isCalled) := by
  rcases h.loads with ⟨new,hl,hn⟩
  have hnew : new.any (fun l => l.file = file && l.isCalled) = false := by
    rw [List.any_eq_false]
    intro l hm
    simp [Load.isCalled,hn l hm]
  rw [hl,List.any_append,hnew,Bool.or_false]

theorem extends_usedCodesLoaded {s s' : System} (h : Extends s s') :
    usedCodesLoaded s' = usedCodesLoaded s := extends_loaded h .usedCodes

theorem weaken_accounts {s : System} {units units' budget budget' : ℕ}
    (h : Accounts s units budget) (hu : units' ≤ units) (hb : budget' ≤ budget) :
    Accounts s units' budget' := by
  have howed := h.owed
  have hbound := h.bounded
  exact ⟨h.live,by omega,by omega,h.finished⟩

theorem called_accounts {s : System} (h : Accounts s 0 0) (i : ℕ) (l : Load) (m : EpgManager)
    (hi : s.loads[i]? = some l) (hc : l.isCalled = false) :
    Accounts { setLoad s i l .called with manager := m } 1 (LoadCallback.weight l.file) := by
  have howed := h.owed
  have hbound := h.bounded
  have hc' : Load.isCalled { l with status := .called } = true := rfl
  have hcount := countP_exchange s.loads i l { l with status := .called }
    (fun l => !l.isCalled) hi
  have hsum := sum_exchange s.loads i l { l with status := .called } Load.weight hi
  simp only [hc,hc',Bool.not_false,Bool.not_true,if_true,Bool.false_eq_true,if_false] at hcount
  have hw : Load.weight l = LoadCallback.weight l.file := by
    rw [Load.weight,hc]
    rfl
  have hw' : Load.weight { l with status := .called } = 0 := rfl
  rw [hw,hw'] at hsum
  constructor
  · exact h.live
  · show (s.loads.set i { l with status := .called }).countP (fun l => !l.isCalled) +
      s.deletions.countP (fun d => !d.status.isCalled) +
      s.saves.countP (fun sv => sv.forTask && !sv.reported)+1 ≤ s.task.pending
    unfold outstanding at howed
    omega
  · show s.task.pending+((s.loads.set i { l with status := .called }).map Load.weight).sum +
      LoadCallback.weight l.file ≤ 19
    unfold weights at hbound
    omega
  · exact h.finished

theorem called_other (s : System) (i : ℕ) (l : Load) (file : StateFile)
    (hi : s.loads[i]? = some l) (hf : l.file ≠ file) :
    (setLoad s i l .called).loads.any (fun l => l.file = file && l.isCalled) =
      s.loads.any (fun l => l.file = file && l.isCalled) := by
  apply any_kept _ _ _ _ _ hi
  simp [hf]

theorem called_loaded (s : System) (i : ℕ) (l : Load) (m : EpgManager)
    (hi : s.loads[i]? = some l) (hf : l.file ≠ .usedCodes) :
    usedCodesLoaded { setLoad s i l .called with manager := m } = usedCodesLoaded s :=
  called_other s i l .usedCodes hi hf

theorem loadedBytes_loadContents (files : Directory) (file : StateFile) :
    loadedBytes (loadContents files file) = some (files file) := by
  unfold loadContents
  cases files file <;> rfl

theorem hadError_eq {s : System} {units budget : ℕ} (h : Accounts s units budget) :
    gTaskHadError s.task = s.task.errorReturned := by
  unfold gTaskHadError
  rw [h.live,Bool.or_false]

end EosPayg.Initialisation
