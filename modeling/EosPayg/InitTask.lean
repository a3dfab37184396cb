import EosPayg.Initialisation

/-!
# What a step does to the initialisation task

A step either runs a callback, which takes one unit off what the task waits for
and then performs effects, or leaves the task alone. No callback calls the task
with nothing pending, and the difference between what is pending and what is
outstanding only grows by the units that callbacks keep.
-/

set_option autoImplicit false

namespace EosPayg.InitTask
open EosPayg.ManagerState EosPayg.ManagerFiles EosPayg.MultiTask EosPayg.SaveQueue
  EosPayg.LoadCallback EosPayg.GuardedRun EosPayg.RecordList EosPayg.Initialisation
open EosPayg.Shutdown (internalSaveStateCb)
open EosPayg.ExpiryTimer (fileLoadCb_bytes)

def Guard (t : GTask GIOError Unit) : Effect → Prop
  | .taskIncrement => 0 < t.pending ∧ t.pending < maxUint
  | .taskReturnBoolean => 0 < t.pending
  | .taskReturnError _ => 0 < t.pending
  | _ => True

def Guarded : System → List Effect → Prop
  | _, [] => True
  | s, e::es => Guard s.task e ∧ Guarded (perform s e) es

/-- The state in which the callback run by an operation begins to act, and what
it does. -/
def callback (s : System) : Operation → Option (System × List Effect)
  | .loadCb i => do
    let l ← s.loads[i]?
    match l.status with
    | .read result => some (loadActs s i l result)
    | _ => none
  | .deleteCb i => do
    let d ← s.deletions[i]?
    match d.status with
    | .done error => some (deleteActs s i d error)
    | _ => none
  | .saveCb i => do
    let sv ← s.saves[i]?
    let result ← sv.result
    some (saveActs s i sv result)
  | _ => none

theorem callback_load {s : System} {i : ℕ} {l : Load} {result : LoadResult}
    (hi : s.loads[i]? = some l) (hl : l.status = .read result) :
    callback s (.loadCb i) = some (loadActs s i l result) := by
  simp only [callback,bind,hi,Option.bind_some,hl]

theorem callback_delete {s : System} {i : ℕ} {d : Deletion} {error : Option GIOError}
    (hi : s.deletions[i]? = some d) (hd : d.status = .done error) :
    callback s (.deleteCb i) = some (deleteActs s i d error) := by
  simp only [callback,bind,hi,Option.bind_some,hd]

theorem callback_save {s : System} {i : ℕ} {sv : Save} {result : Except GIOError Unit}
    (hi : s.saves[i]? = some sv) (hresult : sv.result = some result) :
    callback s (.saveCb i) = some (saveActs s i sv result) := by
  simp only [callback,bind,hi,Option.bind_some,hresult]

/-- No guard trips in the callback an operation runs, nor in the call a save's
operation makes on the task of the save. -/
def GuardsHold (s : System) (op : Operation) : Prop :=
  (∀ b effects, callback s op = some (b,effects) → Guarded b effects) ∧
  ∀ i f sv, op = .opCb i f → s.saves[i]? = some sv → 0 < sv.task.pending

inductive Seen (s s' : System) (op : Operation) : Prop where
  | quiet (hcb : callback s op = none) (task : s'.task = s.task) (data : s'.taskData = s.taskData)
    (outstanding : outstanding s' = outstanding s) (weights : weights s' = weights s)
  | acts (b : System) (effects : List Effect) (units left : ℕ)
    (hcb : callback s op = some (b,effects)) (after : s' = performAll b effects)
    (task : b.task = s.task) (data : b.taskData = s.taskData)
    (outstanding : outstanding b+units = outstanding s)
    (accounts : Accounts b units (costs effects)) (spends : run spend effects units = some left)

theorem owed_pos {s : System} {units budget : ℕ} (h : Accounts s units budget) (hu : 0 < units) :
    0 < s.task.pending := by
  have := h.owed
  omega

theorem perform_guard {s : System} {e : Effect} {units units' budget : ℕ}
    (h : Accounts s units (Effect.cost e+budget)) (hs : spend units e = some units') :
    Guard s.task e := by
  cases e with
  | taskIncrement =>
    have hbound := h.bounded
    have hmax : maxUint = 4294967295 := rfl
    refine ⟨owed_pos h (spend_increment hs).1,?_⟩
    omega
  | taskReturnBoolean => exact owed_pos h (spend_take rfl hs).1
  | taskReturnError error => exact owed_pos h (spend_take rfl hs).1
  | _ => trivial

theorem performAll_guarded (effects : List Effect) (s : System) (units left : ℕ)
    (h : Accounts s units (costs effects)) (hs : run spend effects units = some left) :
    Guarded s effects := by
  induction effects generalizing s units with
  | nil => trivial
  | cons e es ih =>
    rcases run_cons.mp hs with ⟨mid,he,hes⟩
    exact ⟨perform_guard h he,ih _ mid (perform_accounts s e units mid (costs es) h he) hes⟩

theorem perform_slack {s : System} {e : Effect} {units units' budget : ℕ}
    (h : Accounts s units (Effect.cost e+budget)) (hs : spend units e = some units') :
    (perform s e).task.pending+(outstanding s+units) =
      s.task.pending+(outstanding (perform s e)+units') := by
  have hg := perform_guard h hs
  have hstart : Effect.takesUnit e = true → (perform s e).task = s.task →
      outstanding (perform s e) = outstanding s+1 →
      (perform s e).task.pending+(outstanding s+units) =
        s.task.pending+(outstanding (perform s e)+units') := by
    intro ht htask hout
    obtain ⟨hu,hu'⟩ := spend_take ht hs
    rw [htask,hout]
    omega
  cases e with
  | taskIncrement =>
    have hinc : perform s .taskIncrement = { s with task := { s.task with
        pending := s.task.pending+1 } } := congrArg (fun t => { s with task := t })
      (increment_open s.task hg.1 hg.2)
    rw [hinc,(spend_increment hs).2]
    show s.task.pending+1+(outstanding s+units) = s.task.pending+(outstanding s+(units+1))
    omega
  | taskReturnBoolean =>
    obtain ⟨hu,hu'⟩ := spend_take rfl hs
    have hp := (returnBoolean_task s.task hg h.live).2.1
    show (returnBoolean s.task true).pending+(outstanding s+units) =
      s.task.pending+(outstanding s+units')
    have hpos : 0 < s.task.pending := hg
    omega
  | taskReturnError error =>
    obtain ⟨hu,hu'⟩ := spend_take rfl hs
    have hp := (returnError_task s.task error hg h.live).2.1
    show (returnError s.task error).pending+(outstanding s+units) =
      s.task.pending+(outstanding s+units')
    have hpos : 0 < s.task.pending := hg
    omega
  | loadContents file =>
    exact hstart rfl rfl (load_outstanding s file)
  | deleteFile file =>
    exact hstart rfl rfl (deletion_outstanding s file)
  | save saved forTask =>
    have hout := save_outstanding s saved forTask
    cases forTask with
    | true => exact hstart rfl rfl hout
    | false =>
      rw [spend_keep rfl (by simp) hs,hout]
      rfl
  | _ =>
    rw [spend_keep rfl (by simp) hs]
    rfl

theorem performAll_slack (effects : List Effect) (s : System) (units left : ℕ)
    (h : Accounts s units (costs effects)) (hs : run spend effects units = some left) :
    (performAll s effects).task.pending+(outstanding s+units) =
      s.task.pending+(outstanding (performAll s effects)+left) := by
  induction effects generalizing s units with
  | nil =>
    cases hs
    rfl
  | cons e es ih =>
    rcases run_cons.mp hs with ⟨mid,he,hes⟩
    have h1 := perform_slack h he
    have h2 := ih (perform s e) mid (perform_accounts s e units mid (costs es) h he) hes
    show (performAll (perform s e) es).task.pending+_ =
      s.task.pending+(outstanding (performAll (perform s e) es)+left)
    omega

/-- A task is returned by the first error, or with success once nothing is
pending. -/
structure Truthful (t : GTask GIOError Unit) : Prop where
  live : t.cancelled = false
  failed : t.errorReturned = true → ∃ e, t.returned = [.error e]
  completed : t.errorReturned = false →
    t.returned = if t.pending = 0 then [.ok (.boolean true)] else []

theorem increment_truthful {t : GTask GIOError Unit} (h : Truthful t) (hp : 0 < t.pending)
    (hm : t.pending < maxUint) : Truthful (increment t) := by
  rw [increment_open t hp hm]
  refine ⟨h.live,h.failed,fun he => ?_⟩
  show t.returned = if t.pending+1 = 0 then _ else _
  rw [h.completed he,if_neg hp.ne',if_neg (Nat.succ_ne_zero _)]

theorem returnBoolean_truthful {t : GTask GIOError Unit} (h : Truthful t) (hp : 0 < t.pending) :
    Truthful (returnBoolean t true) := by
  rw [returnBoolean_open t true hp h.live]
  split_ifs with hl
  · refine ⟨h.live,fun he => absurd (hl.2.symm.trans he) Bool.false_ne_true,fun he => ?_⟩
    show t.returned++[_] = if t.pending-1 = 0 then _ else _
    rw [h.completed he,if_neg hp.ne',if_pos (by omega)]
    rfl
  · refine ⟨h.live,h.failed,fun he => ?_⟩
    have he' : t.errorReturned = false := he
    have h1 : t.pending ≠ 1 := fun h1 => hl ⟨h1,he'⟩
    show t.returned = if t.pending-1 = 0 then _ else _
    rw [h.completed he',if_neg hp.ne',if_neg (by omega)]

theorem returnError_truthful {t : GTask GIOError Unit} (h : Truthful t) (hp : 0 < t.pending)
    (error : GIOError) : Truthful (returnError t error) := by
  rw [returnError_open t error hp h.live]
  split_ifs with hl
  · exact ⟨h.live,h.failed,fun he => absurd (hl.symm.trans he) (by decide)⟩
  · refine ⟨h.live,fun _ => ⟨error,?_⟩,nofun⟩
    show t.returned++[_] = _
    rw [h.completed (by simpa using hl),if_neg hp.ne']
    rfl

theorem performAll_truthful (effects : List Effect) (s : System) (h : Truthful s.task)
    (hg : Guarded s effects) : Truthful (performAll s effects).task := by
  induction effects generalizing s with
  | nil => exact h
  | cons e es ih =>
    apply ih (perform s e) _ hg.2
    cases e with
    | taskIncrement => exact increment_truthful h hg.1.1 hg.1.2
    | taskReturnBoolean => exact returnBoolean_truthful h hg.1
    | taskReturnError error => exact returnError_truthful h hg.1 error
    | _ => exact h

theorem fileLoadDeleteCb_cases (taskData error : Option GIOError) :
    fileLoadDeleteCb taskData error = .taskReturnBoolean ∨
      ∃ e, fileLoadDeleteCb taskData error = .taskReturnError e := by
  unfold fileLoadDeleteCb
  cases taskData with
  | some e => exact Or.inr ⟨e,rfl⟩
  | none =>
    cases error with
    | none => exact Or.inl rfl
    | some e =>
      show (if e = .notFound then _ else _) = _ ∨ ∃ x, (if e = .notFound then _ else _) = _
      split_ifs
      · exact Or.inl rfl
      · exact Or.inr ⟨e,rfl⟩

theorem giveBack_spends {e : Effect}
    (he : e = .taskReturnBoolean ∨ ∃ error, e = .taskReturnError error) :
    run spend [e] 1 = some 0 ∧ costs [e] = 0 := by
  rcases he with rfl | ⟨error,rfl⟩ <;> exact ⟨rfl,rfl⟩

theorem reportEffects_forTask (result : Except GIOError Unit) :
    ∃ e, reportEffects true result = [e] ∧
      (e = .taskReturnBoolean ∨ ∃ error, e = .taskReturnError error) := by
  cases result with
  | ok u => exact ⟨_,rfl,Or.inl rfl⟩
  | error e => exact ⟨_,rfl,Or.inr ⟨e,rfl⟩⟩

theorem setLoad_counts (s : System) (i : ℕ) (l : Load) (result : LoadResult)
    (hi : s.loads[i]? = some l) (hf : l.status = .inFlight) :
    outstanding (setLoad s i l (.read result)) = outstanding s ∧
      weights (setLoad s i l (.read result)) = weights s := by
  have hc := inFlight_uncalled hf
  have hc' : Load.isCalled { l with status := .read result } = false := rfl
  constructor
  · have hcount := countP_kept s.loads i l { l with status := .read result }
      (fun l => !l.isCalled) hi (by rw [hc,hc'])
    simp only [outstanding,setLoad,hcount]
  · have := sum_exchange s.loads i l { l with status := .read result } Load.weight hi
    simp only [Load.weight,hc,hc'] at this
    simp only [weights,setLoad]
    exact Nat.add_right_cancel this

theorem setDeletion_counts (s : System) (i : ℕ) (d : Deletion) (error : Option GIOError)
    (hi : s.deletions[i]? = some d) (hf : d.status = .inFlight) :
    outstanding (setDeletion s i d (.done error)) = outstanding s := by
  have hcount := countP_kept s.deletions i d { d with status := .done error }
    (fun d => !d.status.isCalled) hi (by rw [hf]; rfl)
  simp only [outstanding,setDeletion,hcount]

theorem setSave_counts (s : System) (i : ℕ) (sv sv' : Save) (hi : s.saves[i]? = some sv)
    (ht : sv'.forTask = sv.forTask) (hr : sv'.reported = sv.reported) :
    outstanding { s with saves := s.saves.set i sv' } = outstanding s := by
  have hcount := countP_kept s.saves i sv sv' (fun sv => sv.forTask && !sv.reported) hi
    (by rw [ht,hr])
  simp only [outstanding,hcount]

theorem called_outstanding (s : System) (i : ℕ) (l : Load) (m : EpgManager)
    (hi : s.loads[i]? = some l) (hc : l.isCalled = false) :
    outstanding { setLoad s i l .called with manager := m }+1 = outstanding s := by
  have hc' : Load.isCalled { l with status := .called } = true := rfl
  have hcount := countP_exchange s.loads i l { l with status := .called }
    (fun l => !l.isCalled) hi
  simp only [hc,hc',Bool.not_false,Bool.not_true,if_true,Bool.false_eq_true,if_false] at hcount
  simp only [outstanding,setLoad]
  omega

theorem deleted_outstanding (s : System) (i : ℕ) (d : Deletion) (error : Option GIOError)
    (hi : s.deletions[i]? = some d) (hd : d.status = .done error) :
    outstanding (setDeletion s i d (.called error))+1 = outstanding s := by
  have hcount := countP_exchange s.deletions i d { d with status := .called error }
    (fun d => !d.status.isCalled) hi
  have hb : d.status.isCalled = false := by rw [hd]; rfl
  have hb' : (Status.called error).isCalled = true := rfl
  simp only [hb,hb',Bool.not_false,Bool.not_true,if_true,Bool.false_eq_true,if_false] at hcount
  simp only [outstanding,setDeletion]
  omega

theorem reported_outstanding (s : System) (i : ℕ) (sv : Save) (m : EpgManager)
    (hi : s.saves[i]? = some sv) (hr : sv.reported = false) :
    outstanding (setReported s i sv m)+(if sv.forTask then 1 else 0) = outstanding s := by
  have hcount := countP_exchange s.saves i sv { sv with reported := true }
    (fun sv => sv.forTask && !sv.reported) hi
  simp only [hr,Bool.not_false,Bool.not_true,Bool.and_true,Bool.and_false,Bool.false_eq_true,
    if_false] at hcount
  simp only [outstanding,setReported]
  omega

theorem reported_accounts {s : System} (h : Accounts s 0 0) (i : ℕ) (sv : Save)
    (self : EpgManager) (hi : s.saves[i]? = some sv) (hr : sv.reported = false) :
    Accounts (setReported s i sv self) (if sv.forTask then 1 else 0) 0 := by
  have hout := reported_outstanding s i sv self hi hr
  exact ⟨h.live,hout.le.trans h.owed,h.bounded,h.finished⟩

theorem fileLoadCb_spends (self : EpgManager) (clock : EpgClock) (hadError : Bool)
    (file : StateFile) (result : LoadResult) :
    (∃ left, run spend (fileLoadCb self clock hadError file result).2 1 = some left) ∧
      costs (fileLoadCb self clock hadError file result).2 ≤ weight file := by
  cases hadError with
  | true => exact ⟨⟨0,rfl⟩,Nat.zero_le _⟩
  | false =>
    rcases fileLoadCb_bytes self clock file result with ⟨e,-,hout⟩ | ⟨data,-,hout⟩
    · rw [hout]
      exact ⟨⟨0,rfl⟩,Nat.zero_le _⟩
    · rw [hout]
      have ha := updateFromFile_answers self clock file data
      exact ⟨ha.spends,ha.cost⟩

theorem deleteCb_accounts {s : System} (h : Accounts s 0 0) (i : ℕ) (d : Deletion)
    (error : Option GIOError) (hi : s.deletions[i]? = some d) (hd : d.status = .done error) :
    Accounts (setDeletion s i d (.called error)) 1 0 := by
  have hout := deleted_outstanding s i d error hi hd
  have howed := h.owed
  refine ⟨h.live,?_,h.bounded,h.finished⟩
  show outstanding (setDeletion s i d (.called error))+1 ≤ s.task.pending
  omega

theorem step_seen {s s' : System} {op : Operation} (h : Accounts s 0 0)
    (hs : step s op = some s') : Seen s s' op := by
  cases step_cases s s' op hs with
  | timePasses clock _ => exact .quiet rfl rfl rfl rfl rfl
  | read i l hi hf =>
    obtain ⟨ho,hw⟩ := setLoad_counts s i l (loadContents s.files l.file) hi hf
    exact .quiet rfl rfl rfl ho hw
  | readFails i error l hi hf he =>
    obtain ⟨ho,hw⟩ := setLoad_counts s i l (.failed error) hi hf
    exact .quiet rfl rfl rfl ho hw
  | loadCb i l result hi hl =>
    have hc := read_uncalled hl
    obtain ⟨⟨left,hspend⟩,hcost⟩ :=
      fileLoadCb_spends s.manager s.clock (gTaskHadError s.task) l.file result
    exact .acts _ _ 1 left (callback_load hi hl) rfl rfl rfl (called_outstanding s i l _ hi hc)
      (weaken_accounts (called_accounts h i l _ hi hc) le_rfl hcost) hspend
  | delete i d hi hf => exact .quiet rfl rfl rfl (setDeletion_counts s i d _ hi hf) rfl
  | deleteFails i error d hi hf => exact .quiet rfl rfl rfl (setDeletion_counts s i d _ hi hf) rfl
  | deleteCb i d error hi hd =>
    obtain ⟨hspend,hcost⟩ := giveBack_spends (fileLoadDeleteCb_cases s.taskData error)
    refine .acts _ [fileLoadDeleteCb s.taskData error] 1 0 (callback_delete hi hd) rfl rfl rfl
      (deleted_outstanding s i d error hi hd) ?_ hspend
    rw [hcost]
    exact deleteCb_accounts h i d error hi hd
  | takeEffect i f sv sv' files' hi he =>
    rcases takeEffect_some sv sv' f s.files files' he with ⟨-,-,rfl⟩
    exact .quiet rfl rfl rfl (setSave_counts s i sv _ hi rfl rfl) rfl
  | fail i f error sv sv' hi he =>
    rcases fail_some sv sv' f error he with ⟨-,-,rfl⟩
    exact .quiet rfl rfl rfl (setSave_counts s i sv _ hi rfl rfl) rfl
  | opCb i f sv sv' hi he =>
    rcases opCb_some sv sv' f he with ⟨error,-,rfl⟩
    exact .quiet rfl rfl rfl (setSave_counts s i sv _ hi rfl rfl) rfl
  | saveCb i sv result hi hresult hr =>
    have ha := reported_accounts h i sv (internalSaveStateCb s.manager result).1 hi hr
    have ho := reported_outstanding s i sv (internalSaveStateCb s.manager result).1 hi hr
    have hcb := callback_save hi hresult
    cases hft : sv.forTask with
    | false =>
      rw [hft] at ha ho
      exact .acts _ _ 0 0 hcb rfl rfl rfl ho (by rw [hft]; exact ha) (by rw [hft]; rfl)
    | true =>
      rw [hft] at ha ho
      rcases reportEffects_forTask result with ⟨e,he,hkind⟩
      obtain ⟨hspend,hcost⟩ := giveBack_spends hkind
      refine .acts _ _ 1 0 hcb rfl rfl rfl ho ?_ ?_
      · rw [hft,he,hcost]
        exact ha
      · rw [hft,he]
        exact hspend

/-- Every step keeps the accounts of the task. -/
theorem step_accounts {s s' : System} {op : Operation} (h : Accounts s 0 0)
    (hs : step s op = some s') : Accounts s' 0 0 := by
  cases step_seen h hs with
  | quiet hcb task data outstanding weights => exact same_accounts h task outstanding weights
  | acts b effects units left hcb after task data outstanding accounts spends =>
    rw [after]
    exact weaken_accounts (performAll_accounts effects b units left accounts spends)
      (Nat.zero_le _) le_rfl

theorem initAsync_accounts (self : EpgManager) (clock : EpgClock) (files : Directory) :
    Accounts (initAsync self clock files) 0 0 := by
  constructor
  · rfl
  · show 4+0 ≤ 4
    omega
  · show 4+15+0 ≤ 19
    omega
  · rintro ⟨v,hv⟩
    cases hv

end EosPayg.InitTask
