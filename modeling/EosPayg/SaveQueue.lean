import EosPayg.ManagerFiles
import EosPayg.MultiTask

/-!
# A save in flight

A save starts three file operations under one task that counts them. Each
takes effect, or fails, at some moment before its callback runs; the callback
reports to the task. The task may be returned with an error while other
operations of the same save are still in flight.
-/

set_option autoImplicit false

namespace EosPayg.SaveQueue
open EosPayg.ManagerState EosPayg.ManagerFiles EosPayg.MultiTask EosPayg.WordArithmetic

inductive SaveFile where
  | clockTime | expirySeconds | usedCodes
  deriving DecidableEq, Repr

def SaveFile.all : List SaveFile := [.clockTime, .expirySeconds, .usedCodes]

def SaveFile.file : SaveFile → StateFile
  | .clockTime => .clockTime
  | .expirySeconds => .expirySeconds
  | .usedCodes => .usedCodes

theorem SaveFile.file_injective : Function.Injective SaveFile.file := by
  intro a b h
  cases a <;> cases b <;> first | rfl | cases h

def saveOp (s : SavedState) : SaveFile → FileOp
  | .clockTime => .replaceContents .clockTime (wordBytes s.clockTime)
  | .expirySeconds => .replaceContents .expirySeconds (wordBytes s.expirySeconds)
  | .usedCodes =>
    if s.usedCodes.codes = [] then .delete .usedCodes
    else .replaceContents .usedCodes (usedCodesBytes s.usedCodes.codes)

theorem saveOp_file (s : SavedState) (f : SaveFile) : (saveOp s f).file = f.file := by
  cases f with
  | clockTime => rfl
  | expirySeconds => rfl
  | usedCodes =>
    unfold saveOp
    split_ifs <;> rfl

theorem saveOp_usedCodes (s : SavedState) :
    (saveOp s .usedCodes).result = usedCodesImage s.usedCodes := by
  unfold saveOp usedCodesImage
  split_ifs <;> rfl

theorem holds_iff (files : Directory) (s : SavedState) :
    Holds files s ↔ ∀ f, files (SaveFile.file f) = (saveOp s f).result := by
  have hu := saveOp_usedCodes s
  constructor
  · rintro ⟨ht,hx,hc⟩ f
    cases f with
    | clockTime => exact ht
    | expirySeconds => exact hx
    | usedCodes => exact hc.trans hu.symm
  · intro h
    exact ⟨h .clockTime,h .expirySeconds,(h .usedCodes).trans hu⟩

def FileOp.isDelete : FileOp → Bool
  | .delete _ => true
  | .replaceContents _ _ => false

/-- The moment an operation takes effect: deleting a file that is not there
does nothing, and says so. -/
def FileOp.run (op : FileOp) (files : Directory) : Option GIOError × Directory :=
  if FileOp.isDelete op = true ∧ files op.file = none then (some .notFound,files)
  else (none,op.apply files)

abbrev SaveTask := GTask GIOError Unit

def fileReplaceCb (task : SaveTask) : Option GIOError → SaveTask
  | some error => returnError task error
  | none => returnBoolean task true

def fileSaveDeleteCb (task : SaveTask) : Option GIOError → SaveTask
  | some error => if error ≠ .notFound then returnError task error else returnBoolean task true
  | none => returnBoolean task true

def saveOpCb (op : FileOp) (task : SaveTask) (error : Option GIOError) : SaveTask :=
  if FileOp.isDelete op then fileSaveDeleteCb task error else fileReplaceCb task error

def succeeded (op : FileOp) (error : Option GIOError) : Bool :=
  error = none ∨ (FileOp.isDelete op = true ∧ error = some .notFound)

theorem saveOpCb_succeeded (op : FileOp) (task : SaveTask) (error : Option GIOError)
    (h : succeeded op error = true) : saveOpCb op task error = returnBoolean task true := by
  unfold saveOpCb fileSaveDeleteCb fileReplaceCb
  cases error with
  | none => split_ifs <;> rfl
  | some e =>
    have hd : FileOp.isDelete op = true ∧ e = .notFound := by simpa [succeeded] using h
    simp [hd]

theorem saveOpCb_failed (op : FileOp) (task : SaveTask) (error : Option GIOError)
    (h : succeeded op error = false) : ∃ e, saveOpCb op task error = returnError task e := by
  unfold saveOpCb fileSaveDeleteCb fileReplaceCb
  cases error with
  | none => simp [succeeded] at h
  | some e =>
    refine ⟨e,?_⟩
    by_cases hd : FileOp.isDelete op = true
    · have he : e ≠ .notFound := by simpa [succeeded,hd] using h
      simp [hd,he]
    · simp [hd]

theorem run_succeeded (op : FileOp) (files : Directory) :
    succeeded op (FileOp.run op files).1 = true ∧
      (FileOp.run op files).2 op.file = op.result ∧
      ∀ file, file ≠ op.file → (FileOp.run op files).2 file = files file := by
  unfold FileOp.run
  split_ifs with h
  · refine ⟨by simp [succeeded,h.1],?_,fun _ _ => rfl⟩
    cases op with
    | delete file => exact h.2
    | replaceContents file bytes => simp [FileOp.isDelete] at h
  · exact ⟨by simp [succeeded],Function.update_self _ _ _,
      fun file hf => Function.update_of_ne hf _ _⟩

inductive Status where
  | inFlight
  | done (error : Option GIOError)
  | called (error : Option GIOError)
  deriving DecidableEq

def Status.isCalled : Status → Bool
  | .called _ => true
  | _ => false

def Status.took (op : FileOp) : Status → Bool
  | .inFlight => false
  | .done error => succeeded op error
  | .called error => succeeded op error

def Status.failed (op : FileOp) : Status → Bool
  | .called error => !succeeded op error
  | _ => false

structure Save where
  saved : SavedState
  clock : EpgClock
  forTask : Bool
  forShutdown : Bool
  status : SaveFile → Status
  task : SaveTask
  reported : Bool

/-- The task of a save is attached for four operations, of which the last is
the call that starts the other three. -/
def saveStateAsync (saved : SavedState) (clock : EpgClock) (forTask forShutdown : Bool) :
    Save where
  saved := saved
  clock := clock
  forTask := forTask
  forShutdown := forShutdown
  status := fun _ => .inFlight
  task := returnBoolean (attached 4) true
  reported := false

def Save.setStatus (sv : Save) (f : SaveFile) (st : Status) : Save :=
  { sv with status := Function.update sv.status f st }

def Save.takeEffect (sv : Save) (f : SaveFile) (files : Directory) : Option (Save × Directory) :=
  if sv.status f = .inFlight then
    some (sv.setStatus f (.done (FileOp.run (saveOp sv.saved f) files).1),
      (FileOp.run (saveOp sv.saved f) files).2)
  else none

def Save.fail (sv : Save) (f : SaveFile) (error : GIOError) : Option Save :=
  if sv.status f = .inFlight ∧ succeeded (saveOp sv.saved f) (some error) = false then
    some (sv.setStatus f (.done (some error)))
  else none

def Save.opCb (sv : Save) (f : SaveFile) : Option Save :=
  match sv.status f with
  | .done error =>
    some { sv.setStatus f (.called error) with
      task := saveOpCb (saveOp sv.saved f) sv.task error }
  | _ => none

theorem takeEffect_some (sv sv' : Save) (f : SaveFile) (files files' : Directory)
    (hs : sv.takeEffect f files = some (sv',files')) :
    sv.status f = .inFlight ∧ files' = (FileOp.run (saveOp sv.saved f) files).2 ∧
      sv' = sv.setStatus f (.done (FileOp.run (saveOp sv.saved f) files).1) := by
  unfold Save.takeEffect at hs
  split_ifs at hs with hf
  cases hs
  exact ⟨hf,rfl,rfl⟩

theorem fail_some (sv sv' : Save) (f : SaveFile) (e : GIOError) (hs : sv.fail f e = some sv') :
    sv.status f = .inFlight ∧ succeeded (saveOp sv.saved f) (some e) = false ∧
      sv' = sv.setStatus f (.done (some e)) := by
  unfold Save.fail at hs
  split_ifs at hs with hf
  cases hs
  exact ⟨hf.1,hf.2,rfl⟩

theorem opCb_some (sv sv' : Save) (f : SaveFile) (hs : sv.opCb f = some sv') :
    ∃ error, sv.status f = .done error ∧
      sv' = { sv.setStatus f (.called error) with
        task := saveOpCb (saveOp sv.saved f) sv.task error } := by
  unfold Save.opCb at hs
  cases hf : sv.status f with
  | inFlight => simp [hf] at hs
  | called error => simp [hf] at hs
  | done error =>
    simp only [hf,Option.some.injEq] at hs
    exact ⟨error,rfl,hs.symm⟩

def Save.result (sv : Save) : Option (Except GIOError Unit) :=
  sv.task.returned.head?.map (fun r => r.map (fun _ => ()))

def uncalled (sv : Save) : ℕ := SaveFile.all.countP (fun f => !(sv.status f).isCalled)

def anyFailed (sv : Save) : Bool :=
  SaveFile.all.any (fun f => (sv.status f).failed (saveOp sv.saved f))

/-- What holds of every save in flight: its task waits for the callbacks still
to come, and is returned by the first failure or by the last callback. -/
structure SaveOk (sv : Save) : Prop where
  notCancelled : sv.task.cancelled = false
  pending : sv.task.pending = uncalled sv
  errorReturned : sv.task.errorReturned = anyFailed sv
  failed : anyFailed sv = true → ∃ e, sv.task.returned = [.error e]
  completed : anyFailed sv = false →
    sv.task.returned = if uncalled sv = 0 then [.ok (.boolean true)] else []

theorem SaveFile.mem_all (f : SaveFile) : f ∈ SaveFile.all := by
  cases f <;> decide

theorem saveStateAsync_ok (saved : SavedState) (clock : EpgClock) (forTask forShutdown : Bool) :
    SaveOk (saveStateAsync saved clock forTask forShutdown) :=
  ⟨rfl,rfl,rfl,nofun,fun _ => rfl⟩

theorem uncalled_setStatus (sv : Save) (f : SaveFile) (st : Status)
    (hf : (sv.status f).isCalled = false) :
    uncalled (sv.setStatus f st) = if st.isCalled then uncalled sv-1 else uncalled sv := by
  cases hst : st.isCalled <;> cases f <;>
    simp only [uncalled,SaveFile.all,Save.setStatus,List.countP_cons,List.countP_nil,
      Function.update,reduceCtorEq,reduceDIte,if_true,hf,hst,Bool.not_false,Bool.not_true,
      Bool.false_eq_true,if_false] <;>
    omega

theorem uncalled_pos (sv : Save) (f : SaveFile) (hf : (sv.status f).isCalled = false) :
    0 < uncalled sv := by
  apply List.countP_pos_iff.mpr
  exact ⟨f,f.mem_all,by simp [hf]⟩

theorem anyFailed_setStatus (sv : Save) (f : SaveFile) (st : Status)
    (hf : (sv.status f).failed (saveOp sv.saved f) = false) :
    anyFailed (sv.setStatus f st) = (anyFailed sv || st.failed (saveOp sv.saved f)) := by
  cases f <;>
    simp [anyFailed,SaveFile.all,Save.setStatus,Function.update,hf,Bool.or_comm,
      Bool.or_left_comm]

theorem setStatus_done_ok (sv : Save) (f : SaveFile) (error : Option GIOError)
    (h : SaveOk sv) (hf : sv.status f = .inFlight) : SaveOk (sv.setStatus f (.done error)) := by
  have hc : uncalled (sv.setStatus f (.done error)) = uncalled sv :=
    uncalled_setStatus sv f (.done error) (by rw [hf]; rfl)
  have ha : anyFailed (sv.setStatus f (.done error)) = anyFailed sv := by
    rw [anyFailed_setStatus sv f _ (by rw [hf]; rfl)]
    exact Bool.or_false _
  constructor
  · exact h.notCancelled
  · exact h.pending.trans hc.symm
  · exact h.errorReturned.trans ha.symm
  · rw [ha]
    exact h.failed
  · rw [ha,hc]
    exact h.completed

theorem called_ok (sv : Save) (f : SaveFile) (error : Option GIOError) (t : SaveTask)
    (h : SaveOk sv) (hf : sv.status f = .done error) (hc : t.cancelled = false)
    (hp : t.pending = sv.task.pending-1)
    (he : t.errorReturned = (anyFailed sv || !succeeded (saveOp sv.saved f) error))
    (hfailed : t.errorReturned = true → ∃ e, t.returned = [.error e])
    (hdone : t.errorReturned = false →
      t.returned = if sv.task.pending = 1 then [.ok (.boolean true)] else []) :
    SaveOk { sv.setStatus f (.called error) with task := t } := by
  have hpos := uncalled_pos sv f (by rw [hf]; rfl)
  have hcalled : uncalled (sv.setStatus f (.called error)) = uncalled sv-1 :=
    uncalled_setStatus sv f (.called error) (by rw [hf]; rfl)
  have ha : t.errorReturned = anyFailed (sv.setStatus f (.called error)) :=
    he.trans (anyFailed_setStatus sv f (.called error) (by rw [hf]; rfl)).symm
  constructor
  · exact hc
  · show t.pending = uncalled (sv.setStatus f (.called error))
    rw [hcalled,hp,h.pending]
  · exact ha
  · intro hh
    exact hfailed (ha.trans hh)
  · intro hh
    show t.returned = if uncalled (sv.setStatus f (.called error)) = 0 then _ else _
    rw [hdone (ha.trans hh),hcalled,h.pending]
    have hz : uncalled sv = 1 ↔ uncalled sv-1 = 0 := by omega
    simp only [hz]

theorem opCb_succeeded (sv : Save) (f : SaveFile) (error : Option GIOError) (h : SaveOk sv)
    (hf : sv.status f = .done error) (hs : succeeded (saveOp sv.saved f) error = true) :
    SaveOk { sv.setStatus f (.called error) with task := returnBoolean sv.task true } := by
  have hpos := uncalled_pos sv f (by rw [hf]; rfl)
  rw [returnBoolean_open sv.task true (h.pending ▸ hpos) h.notCancelled]
  have he : sv.task.errorReturned = (anyFailed sv || !succeeded (saveOp sv.saved f) error) := by
    rw [hs,Bool.not_true,Bool.or_false,h.errorReturned]
  have hnone : sv.task.errorReturned = false → sv.task.returned = [] := by
    intro hh
    rw [h.completed (h.errorReturned ▸ hh),if_neg hpos.ne']
  split_ifs with hl
  · apply called_ok sv f error _ h hf
    · exact h.notCancelled
    · rfl
    · exact he
    · intro hh
      exact absurd (hh.symm.trans hl.2) (by simp)
    · intro _
      show sv.task.returned ++ _ = _
      rw [hnone hl.2,if_pos hl.1]
      rfl
  · apply called_ok sv f error _ h hf
    · exact h.notCancelled
    · rfl
    · exact he
    · intro hh
      exact h.failed (h.errorReturned ▸ hh)
    · intro hh
      show sv.task.returned = _
      rw [hnone hh,if_neg (fun h1 => hl ⟨h1,hh⟩)]

theorem opCb_failed (sv : Save) (f : SaveFile) (error : Option GIOError) (e : GIOError)
    (h : SaveOk sv) (hf : sv.status f = .done error)
    (hs : succeeded (saveOp sv.saved f) error = false) :
    SaveOk { sv.setStatus f (.called error) with task := returnError sv.task e } := by
  have hpos := uncalled_pos sv f (by rw [hf]; rfl)
  have he : true = (anyFailed sv || !succeeded (saveOp sv.saved f) error) := by
    rw [hs,Bool.not_false,Bool.or_true]
  rw [returnError_open sv.task e (h.pending ▸ hpos) h.notCancelled]
  split_ifs with hl
  · apply called_ok sv f error _ h hf
    · exact h.notCancelled
    · rfl
    · exact hl.trans he
    · intro _
      exact h.failed (h.errorReturned ▸ hl)
    · intro hh
      exact absurd (hl.symm.trans hh) (by simp)
  · apply called_ok sv f error _ h hf
    · exact h.notCancelled
    · rfl
    · exact he
    · intro _
      use e
      show sv.task.returned ++ _ = _
      rw [h.completed (by rw [← h.errorReturned]; simpa using hl),if_neg hpos.ne']
      rfl
    · intro hh
      cases hh

theorem opCb_ok (sv sv' : Save) (f : SaveFile) (h : SaveOk sv) (hs : sv.opCb f = some sv') :
    SaveOk sv' := by
  rcases opCb_some sv sv' f hs with ⟨error,hf,rfl⟩
  cases hk : succeeded (saveOp sv.saved f) error with
  | true =>
    rw [saveOpCb_succeeded _ _ _ hk]
    exact opCb_succeeded sv f error h hf hk
  | false =>
    rcases saveOpCb_failed (saveOp sv.saved f) sv.task error hk with ⟨e,he⟩
    rw [he]
    exact opCb_failed sv f error e h hf hk

theorem takeEffect_ok (sv sv' : Save) (f : SaveFile) (files files' : Directory) (h : SaveOk sv)
    (hs : sv.takeEffect f files = some (sv',files')) : SaveOk sv' := by
  rcases takeEffect_some sv sv' f files files' hs with ⟨hf,-,rfl⟩
  exact setStatus_done_ok sv f _ h hf

theorem fail_ok (sv sv' : Save) (f : SaveFile) (e : GIOError) (h : SaveOk sv)
    (hs : sv.fail f e = some sv') : SaveOk sv' := by
  rcases fail_some sv sv' f e hs with ⟨hf,-,rfl⟩
  exact setStatus_done_ok sv f _ h hf

/-- Only a save all of whose operations have taken effect is returned with
success. -/
theorem result_ok (sv : Save) (h : SaveOk sv) (hr : sv.result = some (.ok ())) :
    ∀ f, (sv.status f).took (saveOp sv.saved f) = true := by
  cases ha : anyFailed sv with
  | true =>
    obtain ⟨e,he⟩ := h.failed ha
    rw [Save.result,he] at hr
    cases hr
  | false =>
    have hret := h.completed ha
    by_cases hu : uncalled sv = 0
    · intro f
      have hcalled := List.countP_eq_zero.mp hu f f.mem_all
      have hfail := List.any_eq_false.mp ha f f.mem_all
      cases hst : sv.status f with
      | inFlight => simp [hst,Status.isCalled] at hcalled
      | done error => simp [hst,Status.isCalled] at hcalled
      | called error => simpa [hst,Status.failed,Status.took] using hfail
    · rw [if_neg hu] at hret
      rw [Save.result,hret] at hr
      cases hr

theorem result_error (sv : Save) (h : SaveOk sv) (e : GIOError)
    (hr : sv.result = some (.error e)) : anyFailed sv = true := by
  by_contra ha
  have hret := h.completed (by simpa using ha)
  rw [Save.result,hret] at hr
  split_ifs at hr <;> cases hr

end EosPayg.SaveQueue
