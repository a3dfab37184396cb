import EosPayg.GuardedRun
import Mathlib.Data.List.TakeWhile

/-!
# Tasks with a count of pending operations

The functions of `multi-task.c` over the part of `GTask` they use. A task has
an error when one was returned or when its cancellable is cancelled, since
`check-cancellable` is on by default. A task that is never returned never
calls its caller back. A call with nothing pending is a programmer error which
leaves the task unchanged.
-/

set_option autoImplicit false

namespace EosPayg.MultiTask
open EosPayg.GuardedRun

inductive TaskValue (α : Type*) where
  | boolean (b : Bool)
  | pointer (a : α)
  deriving DecidableEq, Repr

structure GTask (E α : Type*) where
  pending : ℕ
  cancelled : Bool
  errorReturned : Bool
  returned : List (Except E (TaskValue α))
  destroyed : List α
  deriving DecidableEq

variable {E α : Type*}

def gTaskNew : GTask E α := ⟨0, false, false, [], []⟩

def gTaskHadError (t : GTask E α) : Bool := t.errorReturned || t.cancelled

def gTaskReturnValue (t : GTask E α) (v : TaskValue α) : GTask E α :=
  { t with returned := t.returned ++ [.ok v] }

def gTaskReturnError (t : GTask E α) (e : E) : GTask E α :=
  { t with returned := t.returned ++ [.error e], errorReturned := true }

def maxUint : ℕ := 4294967295

def attach (t : GTask E α) (pending : ℕ) : GTask E α :=
  if t.pending = 0 ∧ 0 < pending then { t with pending := pending } else t

def increment (t : GTask E α) : GTask E α :=
  if 0 < t.pending ∧ t.pending < maxUint then { t with pending := t.pending+1 } else t

def release (t : GTask E α) : GTask E α := { t with pending := t.pending-1 }

def returnBoolean (t : GTask E α) (result : Bool) : GTask E α :=
  if 0 < t.pending then
    if (release t).pending = 0 ∧ gTaskHadError (release t) = false then
      gTaskReturnValue (release t) (.boolean result)
    else release t
  else t

def returnPointer (t : GTask E α) (result : α) (resultDestroy : Bool) : GTask E α :=
  if 0 < t.pending then
    if (release t).pending = 0 ∧ gTaskHadError (release t) = false then
      gTaskReturnValue (release t) (.pointer result)
    else if resultDestroy then
      { release t with destroyed := t.destroyed ++ [result] }
    else release t
  else t

def returnError (t : GTask E α) (error : E) : GTask E α :=
  if 0 < t.pending then
    if gTaskHadError (release t) then release t else gTaskReturnError (release t) error
  else t

def cancel (t : GTask E α) : GTask E α := { t with cancelled := true }

inductive Call (E α : Type*) where
  | increment
  | returnBoolean (result : Bool)
  | returnPointer (result : α) (resultDestroy : Bool)
  | returnError (error : E)
  | cancel
  deriving DecidableEq

def Call.isCancel : Call E α → Bool
  | .cancel => true
  | _ => false

def Call.isError : Call E α → Bool
  | .returnError _ => true
  | _ => false

/-- Calls of the multi-task functions are made while operations are pending;
the cancellable may become cancelled at any time. -/
def step (t : GTask E α) : Call E α → Option (GTask E α)
  | .increment => if 0 < t.pending then some (increment t) else none
  | .returnBoolean b => if 0 < t.pending then some (returnBoolean t b) else none
  | .returnPointer a d => if 0 < t.pending then some (returnPointer t a d) else none
  | .returnError e => if 0 < t.pending then some (returnError t e) else none
  | .cancel => some (cancel t)

def attached (n : ℕ) : GTask E α := attach gTaskNew n

@[simp]
theorem attached_eq (n : ℕ) (hn : 0 < n) :
    (attached n : GTask E α) = ⟨n, false, false, [], []⟩ := by
  simp [attached,attach,gTaskNew,hn]

theorem increment_open (t : GTask E α) (hp : 0 < t.pending) (hm : t.pending < maxUint) :
    increment t = { t with pending := t.pending+1 } := by
  rw [increment,if_pos ⟨hp,hm⟩]

theorem release_last (t : GTask E α) (hp : 0 < t.pending) :
    (release t).pending = 0 ↔ t.pending = 1 := by
  show t.pending-1 = 0 ↔ _
  omega

theorem release_hadError (t : GTask E α) (hc : t.cancelled = false) :
    gTaskHadError (release t) = t.errorReturned := by
  show (t.errorReturned || t.cancelled) = _
  rw [hc,Bool.or_false]

theorem returnBoolean_open (t : GTask E α) (result : Bool) (hp : 0 < t.pending)
    (hc : t.cancelled = false) :
    returnBoolean t result =
      if t.pending = 1 ∧ t.errorReturned = false then
        gTaskReturnValue (release t) (.boolean result) else release t := by
  simp only [returnBoolean,if_pos hp,release_last t hp,release_hadError t hc]

theorem returnError_open (t : GTask E α) (error : E) (hp : 0 < t.pending)
    (hc : t.cancelled = false) :
    returnError t error =
      if t.errorReturned then release t else gTaskReturnError (release t) error := by
  rw [returnError,if_pos hp,release_hadError t hc]

def Settled (t : GTask E α) : Prop :=
  t.cancelled = false ∧
    t.returned.length = if t.errorReturned = true ∨ t.pending = 0 then 1 else 0

theorem increment_settled (t : GTask E α) (h : Settled t) (hp : 0 < t.pending) :
    Settled (increment t) := by
  unfold increment
  split_ifs with hm
  · refine ⟨h.1,?_⟩
    rw [h.2]
    have hz : t.pending ≠ 0 := by omega
    simp [hz]
  · exact h

theorem release_settled (t : GTask E α) (ds : List α) (h : Settled t) (hp : 0 < t.pending)
    (hr : ¬((release t).pending = 0 ∧ gTaskHadError (release t) = false)) :
    Settled { release t with destroyed := ds } := by
  obtain ⟨hn,h⟩ := h
  have hz : t.pending ≠ 0 := by omega
  refine ⟨hn,?_⟩
  cases he : t.errorReturned <;>
    simp_all [release,gTaskHadError]

theorem value_settled (t : GTask E α) (v : TaskValue α) (h : Settled t) (hp : 0 < t.pending)
    (hr : (release t).pending = 0 ∧ gTaskHadError (release t) = false) :
    Settled (gTaskReturnValue (release t) v) := by
  obtain ⟨hn,h⟩ := h
  obtain ⟨hz,he⟩ := hr
  have hp' : t.pending ≠ 0 := by omega
  refine ⟨hn,?_⟩
  simp_all [release,gTaskHadError,gTaskReturnValue]

theorem error_settled (t : GTask E α) (e : E) (h : Settled t) (hp : 0 < t.pending) :
    Settled (returnError t e) ∧ (returnError t e).errorReturned = true := by
  obtain ⟨hn,h⟩ := h
  have hz : t.pending ≠ 0 := by omega
  unfold returnError
  cases he : t.errorReturned <;>
    simp_all [Settled,release,gTaskHadError,gTaskReturnError]

theorem step_settled (t t' : GTask E α) (c : Call E α) (hc : c.isCancel = false)
    (h : Settled t) (hs : step t c = some t') :
    Settled t' ∧ t'.errorReturned = (t.errorReturned || c.isError) := by
  cases c with
  | cancel => cases hc
  | increment =>
    simp only [step] at hs
    split_ifs at hs with hp
    cases hs
    refine ⟨increment_settled t h hp,?_⟩
    unfold increment
    split_ifs <;> simp [Call.isError]
  | returnBoolean b =>
    simp only [step] at hs
    split_ifs at hs with hp
    cases hs
    simp only [returnBoolean,if_pos hp,Call.isError,Bool.or_false]
    split_ifs with hr
    · exact ⟨value_settled t _ h hp hr,rfl⟩
    · exact ⟨release_settled t t.destroyed h hp hr,rfl⟩
  | returnPointer a d =>
    simp only [step] at hs
    split_ifs at hs with hp
    cases hs
    simp only [returnPointer,if_pos hp,Call.isError,Bool.or_false]
    split_ifs with hr hd
    · exact ⟨value_settled t _ h hp hr,rfl⟩
    · exact ⟨release_settled t _ h hp hr,rfl⟩
    · exact ⟨release_settled t t.destroyed h hp hr,rfl⟩
  | returnError e =>
    simp only [step] at hs
    split_ifs at hs with hp
    cases hs
    have he := error_settled t e h hp
    exact ⟨he.1,by simp [he.2,Call.isError]⟩

theorem run_settled (calls : List (Call E α)) (t t' : GTask E α)
    (hc : ∀ c ∈ calls, c.isCancel = false) (h : Settled t)
    (hr : run step calls t = some t') :
    Settled t' ∧ t'.errorReturned = (t.errorReturned || calls.any Call.isError) := by
  induction calls generalizing t with
  | nil =>
    cases hr
    simpa using h
  | cons c cs ih =>
    obtain ⟨s,hs,ht⟩ := run_cons.mp hr
    obtain ⟨h1,e1⟩ := step_settled t s c (hc c (by simp)) h hs
    obtain ⟨h2,e2⟩ := ih s (fun d hd => hc d (by simp [hd])) h1 ht
    exact ⟨h2,by simp [e2,e1,Bool.or_assoc]⟩

theorem cancelled_step (t t' : GTask E α) (c : Call E α) (h : t.cancelled = true)
    (hs : step t c = some t') : t'.cancelled = true ∧ t'.returned = t.returned := by
  cases c <;> simp only [step] at hs <;>
    first
    | (cases hs; exact ⟨rfl,rfl⟩)
    | (split_ifs at hs with hp
       cases hs
       simp only [increment,returnBoolean,returnPointer,returnError,release,gTaskHadError,h]
       split_ifs <;> simp_all)

theorem cancelled_run (calls : List (Call E α)) (t t' : GTask E α) (h : t.cancelled = true)
    (hr : run step calls t = some t') : t'.returned = t.returned := by
  refine (run_invariant (I := fun s => s.cancelled = true ∧ s.returned = t.returned)
    ?_ ⟨h,rfl⟩ hr).2
  intro s c s' hi hs
  have hk := cancelled_step s s' c hi.1 hs
  exact ⟨hk.1,hk.2.trans hi.2⟩

theorem only_cancel_pending (calls : List (Call E α)) (t t' : GTask E α)
    (hc : ∀ c ∈ calls, c = .cancel) (hr : run step calls t = some t') :
    t'.pending = t.pending := by
  induction calls generalizing t with
  | nil => cases hr; rfl
  | cons c cs ih =>
    obtain ⟨s,hs,ht⟩ := run_cons.mp hr
    rw [ih s (fun d hd => hc d (by simp [hd])) ht]
    rw [hc c (by simp)] at hs
    cases hs
    rfl

theorem complete_only_cancel (calls : List (Call E α)) (t t' : GTask E α)
    (hp : t.pending = 0) (hr : run step calls t = some t') : ∀ c ∈ calls, c = .cancel := by
  induction calls generalizing t with
  | nil => simp
  | cons c cs ih =>
    obtain ⟨s,hs,ht⟩ := run_cons.mp hr
    have hk : c = .cancel := by
      cases c <;> simp [step,hp] at hs ⊢
    subst hk
    cases hs
    simpa using ih (cancel t) hp ht

def beforeCancel (calls : List (Call E α)) : List (Call E α) :=
  calls.takeWhile (fun c => !c.isCancel)

def afterCancel (calls : List (Call E α)) : List (Call E α) :=
  calls.dropWhile (fun c => !c.isCancel)

/-- The cancellable is not cancelled before the last call, or an error was
passed before it was. -/
def CompletesBeforeCancel (calls : List (Call E α)) : Prop :=
  (∃ c ∈ beforeCancel calls, c.isError = true) ∨ ∀ c ∈ afterCancel calls, c = .cancel

theorem afterCancel_cases (calls : List (Call E α)) :
    afterCancel calls = [] ∨ ∃ rest, afterCancel calls = .cancel::rest := by
  induction calls with
  | nil => exact Or.inl rfl
  | cons c cs ih =>
    cases c with
    | cancel => exact Or.inr ⟨cs,rfl⟩
    | increment => exact ih
    | returnBoolean b => exact ih
    | returnPointer a d => exact ih
    | returnError e => exact ih

theorem beforeCancel_not_cancel (calls : List (Call E α)) :
    ∀ c ∈ beforeCancel calls, c.isCancel = false := by
  intro c hc
  simpa using List.mem_takeWhile_imp hc

theorem complete_returned (t : GTask E α) (h : Settled t) (hp : t.pending = 0) :
    t.returned.length = 1 := by
  rw [h.2,if_pos (Or.inr hp)]

/-- When the pending count has come back to zero, the task has been returned
exactly once if and only if it was not cancelled too early. -/
theorem returned_once_iff (n : ℕ) (hn : 1 ≤ n) (calls : List (Call E α)) (t : GTask E α)
    (hr : run step calls (attached n) = some t) (hp : t.pending = 0) :
    t.returned.length = 1 ↔ CompletesBeforeCancel calls := by
  have hsplit : calls = beforeCancel calls ++ afterCancel calls :=
    (List.takeWhile_append_dropWhile).symm
  rw [hsplit,attached_eq n hn] at hr
  obtain ⟨m,hm,ht⟩ := run_append_some.mp hr
  obtain ⟨hset,herr⟩ := run_settled _ _ m (beforeCancel_not_cancel calls)
    ⟨rfl,by simp [show n ≠ 0 by omega]⟩ hm
  have he : m.errorReturned = true ↔ ∃ c ∈ beforeCancel calls, c.isError = true := by
    rw [herr,Bool.false_or,List.any_eq_true]
  rcases afterCancel_cases calls with hnil | ⟨rest,hcons⟩
  · rw [hnil] at ht
    cases ht
    exact ⟨fun _ => Or.inr (by simp [hnil]),fun _ => complete_returned _ hset hp⟩
  · have hret : t.returned = m.returned := by
      rw [hcons] at ht
      obtain ⟨s,hs,hrest⟩ := run_cons.mp ht
      cases hs
      exact cancelled_run rest (cancel m) t rfl hrest
    have hpend : (∀ c ∈ afterCancel calls, c = .cancel) ↔ m.pending = 0 :=
      ⟨fun hc => (only_cancel_pending _ m t hc ht).symm.trans hp,
        fun hz => complete_only_cancel _ m t hz ht⟩
    rw [hret,hset.2,CompletesBeforeCancel,← he,hpend]
    split_ifs with hd <;> simp [hd]

theorem returned_once_example :
    run step [.increment, .returnBoolean true, .returnError 5, .cancel, .returnBoolean true]
        (attached 2 : GTask ℕ Unit) = some ⟨0, true, true, [.error 5], []⟩ ∧
      ((1 = 1) ↔ CompletesBeforeCancel
        ([.increment, .returnBoolean true, .returnError 5, .cancel, .returnBoolean true] :
          List (Call ℕ Unit))) :=
  ⟨by decide,returned_once_iff 2 (by decide) _ ⟨0, true, true, [.error 5], []⟩
    (by decide) rfl⟩

/-- Cancelled before its only operation completes, a task comes to no pending
operation without ever being returned. -/
theorem cancelled_never_returned :
    ¬ ∀ (calls : List (Call Unit Unit)) (t : GTask Unit Unit),
      run step calls (attached 1) = some t → t.pending = 0 → t.returned.length = 1 := by
  intro h
  have := h [.cancel, .returnBoolean true] ⟨0, true, false, [], []⟩ (by decide) rfl
  simp at this

end EosPayg.MultiTask
