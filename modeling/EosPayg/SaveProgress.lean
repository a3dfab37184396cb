import EosPayg.SaveQueue

/-!
# Progress of a save

What a save has put on disk stays put: whatever happens to its operations, an
effect is never taken back and a failure is never forgotten.
-/

set_option autoImplicit false

namespace EosPayg.SaveProgress
open EosPayg.ManagerState EosPayg.ManagerFiles EosPayg.SaveQueue
open EosPayg.MultiTask (returnBoolean returnError)

def SaveGood (sv : Save) : Prop :=
  SaveOk sv ∧ (sv.reported = true → anyFailed sv = true ∨
    ∀ f, (sv.status f).took (saveOp sv.saved f) = true)

def AllTook (sv : Save) : Prop := ∀ f, (sv.status f).took (saveOp sv.saved f) = true

/-- How a save may change: what it writes stays, what took effect stays. -/
structure Progress (sv sv' : Save) : Prop where
  saved : sv'.saved = sv.saved
  clock : sv'.clock = sv.clock
  forShutdown : sv'.forShutdown = sv.forShutdown
  reported : sv'.reported = sv.reported
  took : ∀ f, (sv.status f).took (saveOp sv.saved f) = true →
    (sv'.status f).took (saveOp sv.saved f) = true
  failed : anyFailed sv = true → anyFailed sv' = true
  ok : SaveOk sv'

theorem setStatus_same (sv : Save) (f : SaveFile) (st : Status) :
    (sv.setStatus f st).status f = st := Function.update_self _ _ _

theorem setStatus_other (sv : Save) (f g : SaveFile) (st : Status) (h : g ≠ f) :
    (sv.setStatus f st).status g = sv.status g := Function.update_of_ne h _ _

theorem setStatus_progress (sv : Save) (f : SaveFile) (st : Status) (t : SaveTask)
    (hf : (sv.status f).failed (saveOp sv.saved f) = false)
    (ht : (sv.status f).took (saveOp sv.saved f) = true → st.took (saveOp sv.saved f) = true)
    (hok : SaveOk { sv.setStatus f st with task := t }) :
    Progress sv { sv.setStatus f st with task := t } := by
  constructor
  · rfl
  · rfl
  · rfl
  · rfl
  · intro g hg
    show ((sv.setStatus f st).status g).took _ = true
    by_cases hgf : g = f
    · subst hgf
      rw [setStatus_same]
      exact ht hg
    · rwa [setStatus_other _ _ _ _ hgf]
  · intro hfail
    show anyFailed (sv.setStatus f st) = true
    rw [anyFailed_setStatus sv f st hf,hfail]
    rfl
  · exact hok

theorem setStatus_took (sv : Save) (f : SaveFile) (st : Status)
    (ht : st.took (saveOp sv.saved f) = true → (sv.status f).took (saveOp sv.saved f) = true)
    (g : SaveFile) (hg : ((sv.setStatus f st).status g).took (saveOp sv.saved g) = true) :
    (sv.status g).took (saveOp sv.saved g) = true := by
  by_cases hgf : g = f
  · subst hgf
    rw [setStatus_same] at hg
    exact ht hg
  · rwa [setStatus_other _ _ _ _ hgf] at hg

theorem takeEffect_progress (sv sv' : Save) (f : SaveFile) (files files' : Directory)
    (h : SaveOk sv) (hs : sv.takeEffect f files = some (sv',files')) : Progress sv sv' := by
  have hok := takeEffect_ok sv sv' f files files' h hs
  rcases takeEffect_some sv sv' f files files' hs with ⟨hf,-,rfl⟩
  apply setStatus_progress sv f _ sv.task
  · rw [hf]
    rfl
  · rw [hf]
    exact nofun
  · exact hok

theorem fail_progress (sv sv' : Save) (f : SaveFile) (e : GIOError) (h : SaveOk sv)
    (hs : sv.fail f e = some sv') :
    Progress sv sv' ∧ ∀ g, (sv'.status g).took (saveOp sv.saved g) = true →
      (sv.status g).took (saveOp sv.saved g) = true := by
  have hok := fail_ok sv sv' f e h hs
  rcases fail_some sv sv' f e hs with ⟨hf,hk,rfl⟩
  constructor
  · apply setStatus_progress sv f _ sv.task
    · rw [hf]
      rfl
    · rw [hf]
      exact nofun
    · exact hok
  · apply setStatus_took
    intro ht
    rw [Status.took,hk] at ht
    cases ht

theorem opCb_progress (sv sv' : Save) (f : SaveFile) (h : SaveOk sv)
    (hs : sv.opCb f = some sv') :
    Progress sv sv' ∧ ∀ g, (sv'.status g).took (saveOp sv.saved g) = true →
      (sv.status g).took (saveOp sv.saved g) = true := by
  have hok := opCb_ok sv sv' f h hs
  rcases opCb_some sv sv' f hs with ⟨error,hf,rfl⟩
  constructor
  · apply setStatus_progress sv f _ _
    · rw [hf]
      rfl
    · rw [hf]
      exact id
    · exact hok
  · apply setStatus_took sv f (.called error)
    rw [hf]
    exact id

theorem returnBoolean_extends (t : SaveTask) (result : Bool) :
    t.returned <+: (returnBoolean t result).returned := by
  unfold returnBoolean
  split_ifs
  · exact List.prefix_append _ _
  · exact List.prefix_refl _
  · exact List.prefix_refl _

theorem returnError_extends (t : SaveTask) (error : GIOError) :
    t.returned <+: (returnError t error).returned := by
  unfold returnError
  split_ifs
  · exact List.prefix_refl _
  · exact List.prefix_append _ _
  · exact List.prefix_refl _

theorem opCb_result {sv sv' : Save} {f : SaveFile} (hs : sv.opCb f = some sv')
    {result : Except GIOError Unit} (h : sv.result = some result) : sv'.result = some result := by
  obtain ⟨error,-,rfl⟩ := opCb_some sv sv' f hs
  have hext : sv.task.returned <+: (saveOpCb (saveOp sv.saved f) sv.task error).returned := by
    cases hok : succeeded (saveOp sv.saved f) error with
    | true =>
      rw [saveOpCb_succeeded _ _ _ hok]
      exact returnBoolean_extends sv.task true
    | false =>
      obtain ⟨e,he⟩ := saveOpCb_failed _ sv.task _ hok
      rw [he]
      exact returnError_extends sv.task e
  obtain ⟨later,hlater⟩ := hext
  unfold Save.result at h ⊢
  dsimp only
  rw [← hlater]
  cases hret : sv.task.returned with
  | nil => simp [hret] at h
  | cons first rest => simpa [hret] using h

theorem Progress.good {sv sv' : Save} (hp : Progress sv sv') (h : SaveGood sv) :
    SaveGood sv' := by
  refine ⟨hp.ok,fun hr => ?_⟩
  rcases h.2 (hp.reported.symm.trans hr) with hf | ht
  · exact Or.inl (hp.failed hf)
  · right
    intro f
    rw [hp.saved]
    exact hp.took f (ht f)

theorem Progress.allTook {sv sv' : Save} (hp : Progress sv sv') (h : AllTook sv) :
    AllTook sv' := by
  intro f
  rw [hp.saved]
  exact hp.took f (h f)

theorem result_good (sv : Save) (h : SaveOk sv) (r : Except GIOError Unit)
    (hr : sv.result = some r) : anyFailed sv = true ∨ AllTook sv := by
  cases r with
  | error e => exact Or.inl (result_error sv h e hr)
  | ok u => exact Or.inr (result_ok sv h hr)

theorem reported_good (sv : Save) (h : SaveOk sv) (r : Except GIOError Unit)
    (hr : sv.result = some r) : SaveGood { sv with reported := true } :=
  ⟨⟨h.notCancelled,h.pending,h.errorReturned,h.failed,h.completed⟩,
    fun _ => result_good sv h r hr⟩

/-- A save is never stuck: some operation of it is still to take effect or to
be called back, or its own callback can be. -/
theorem save_moves (sv : Save) (h : SaveOk sv) :
    (∃ f, sv.status f = .inFlight) ∨ (∃ f error, sv.status f = .done error) ∨
      ∃ result, sv.result = some result := by
  by_cases hu : uncalled sv = 0
  · right
    right
    cases ha : anyFailed sv with
    | true =>
      obtain ⟨e,he⟩ := h.failed ha
      exact ⟨.error e,by rw [Save.result,he]; rfl⟩
    | false =>
      have hret := h.completed ha
      rw [if_pos hu] at hret
      exact ⟨.ok (),by rw [Save.result,hret]; rfl⟩
  · obtain ⟨f,-,hf⟩ := List.countP_pos_iff.mp (Nat.pos_of_ne_zero hu)
    cases hst : sv.status f with
    | inFlight => exact .inl ⟨f,hst⟩
    | done error => exact .inr (.inl ⟨f,error,hst⟩)
    | called error =>
      rw [hst] at hf
      cases hf

end EosPayg.SaveProgress
