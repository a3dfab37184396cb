import EosPayg.MultiTask

/-!
# What a task is returned with

Without a cancellation the calls made so far decide what the task has been
returned with and which of the pointers passed to it were destroyed: nothing
until the first error or the last operation, then that error or the value of
that operation. Every call that takes ownership of a pointer gives it up at
once, to the caller of the task or to the destroy function.
-/

set_option autoImplicit false

namespace EosPayg.TaskValues
open EosPayg.GuardedRun EosPayg.MultiTask

variable {E α : Type*}

def callValue : Call E α → Option (TaskValue α)
  | .returnBoolean b => some (.boolean b)
  | .returnPointer a _ => some (.pointer a)
  | _ => none

def callError : Call E α → Option E
  | .returnError e => some e
  | _ => none

def callOwned : Call E α → Option α
  | .returnPointer a true => some a
  | _ => none

def passedErrors (calls : List (Call E α)) : List E := calls.filterMap callError

def passedOwned (calls : List (Call E α)) : List α := calls.filterMap callOwned

@[simp]
theorem passedErrors_snoc (calls : List (Call E α)) (c : Call E α) :
    passedErrors (calls++[c]) = passedErrors calls++(callError c).toList := by
  rw [passedErrors,List.filterMap_append]
  cases h : callError c <;> simp [passedErrors,h]

@[simp]
theorem passedOwned_snoc (calls : List (Call E α)) (c : Call E α) :
    passedOwned (calls++[c]) = passedOwned calls++(callOwned c).toList := by
  rw [passedOwned,List.filterMap_append]
  cases h : callOwned c <;> simp [passedOwned,h]

theorem returnPointer_open (t : GTask E α) (result : α) (resultDestroy : Bool)
    (hp : 0 < t.pending) (hc : t.cancelled = false) :
    returnPointer t result resultDestroy =
      if t.pending = 1 ∧ t.errorReturned = false then
        gTaskReturnValue (release t) (.pointer result)
      else if resultDestroy then { release t with destroyed := t.destroyed++[result] }
      else release t := by
  simp only [returnPointer,if_pos hp,release_last t hp,release_hadError t hc]

/-- A task that was returned with the first of the errors, or waits for more
calls if there was none. -/
structure Open (calls : List (Call E α)) (t : GTask E α) : Prop where
  cancelled : t.cancelled = false
  errorReturned : t.errorReturned = false ↔ passedErrors calls = []
  returned : t.returned = (passedErrors calls).head?.toList.map .error
  destroyed : t.destroyed = passedOwned calls
  waiting : passedErrors calls = [] → 0 < t.pending

structure ReturnedBy (calls : List (Call E α)) (c : Call E α) (t : GTask E α) : Prop where
  pending : t.pending = 0
  noError : passedErrors (calls++[c]) = []
  returned : ∃ v, callValue c = some v ∧ t.returned = [.ok v]
  destroyed : t.destroyed = passedOwned calls

theorem attached_open (n : ℕ) (hn : 1 ≤ n) : Open [] (attached n : GTask E α) := by
  rw [attached_eq n hn]
  exact ⟨rfl,by simp [passedErrors],rfl,rfl,fun _ => hn⟩

theorem increment_step_open {calls : List (Call E α)} {t : GTask E α} (h : Open calls t) :
    Open (calls++[.increment]) (increment t) := by
  have he : passedErrors (calls++[.increment]) = passedErrors calls := by simp [callError]
  have ho : passedOwned (calls++[.increment]) = passedOwned calls := by simp [callOwned]
  unfold increment
  split_ifs with hm
  · exact ⟨h.cancelled,by rw [he,← h.errorReturned],by rw [he,← h.returned],
      by rw [ho,← h.destroyed],fun _ => Nat.succ_pos _⟩
  · exact ⟨h.cancelled,by rw [he,h.errorReturned],by rw [he,h.returned],
      by rw [ho,h.destroyed],fun hn => h.waiting (he.symm.trans hn)⟩

theorem release_open {calls : List (Call E α)} {t : GTask E α} {c : Call E α}
    (h : Open calls t) (hp : 0 < t.pending) (he : callError c = none)
    (hl : ¬(t.pending = 1 ∧ t.errorReturned = false)) {ds : List α}
    (hd : ds = passedOwned (calls++[c])) :
    Open (calls++[c]) { release t with destroyed := ds } := by
  have hsame : passedErrors (calls++[c]) = passedErrors calls := by simp [he]
  refine ⟨h.cancelled,by rw [hsame,← h.errorReturned]; rfl,by rw [hsame,← h.returned]; rfl,hd,?_⟩
  intro hn
  rw [hsame,← h.errorReturned] at hn
  show 0 < t.pending-1
  have hne : t.pending ≠ 1 := fun h1 => hl ⟨h1,hn⟩
  omega

theorem value_returnedBy {calls : List (Call E α)} {t : GTask E α} {c : Call E α}
    {v : TaskValue α} (h : Open calls t) (hv : callValue c = some v) (he : callError c = none)
    (hl : t.pending = 1 ∧ t.errorReturned = false) :
    ReturnedBy calls c (gTaskReturnValue (release t) v) := by
  have hn := h.errorReturned.mp hl.2
  refine ⟨?_,by simp [he,hn],⟨v,hv,?_⟩,h.destroyed⟩
  · show t.pending-1 = 0
    omega
  · show t.returned++[.ok v] = _
    rw [h.returned,hn]
    rfl

theorem error_step_open {calls : List (Call E α)} {t : GTask E α} {e : E} (h : Open calls t)
    (hp : 0 < t.pending) : Open (calls++[.returnError e]) (returnError t e) := by
  have hs : passedErrors (calls++[.returnError e]) = passedErrors calls++[e] := by
    simp [callError]
  have ho : passedOwned (calls++[.returnError e]) = passedOwned calls := by simp [callOwned]
  have hne : passedErrors calls++[e] ≠ [] := by simp
  rw [returnError_open t e hp h.cancelled]
  by_cases he : t.errorReturned = true
  · have hsome : passedErrors calls ≠ [] := fun hn => by simp [h.errorReturned.mpr hn] at he
    have hhead : (passedErrors calls++[e]).head? = (passedErrors calls).head? :=
      List.head?_append_of_ne_nil _ hsome
    rw [if_pos he]
    refine ⟨h.cancelled,?_,?_,by rw [ho]; exact h.destroyed,fun hn => absurd (hs ▸ hn) hne⟩
    · rw [hs]
      exact iff_of_false (by simp [release,he]) hne
    · rw [hs,hhead]
      exact h.returned
  · have hnone := h.errorReturned.mp (Bool.not_eq_true _ ▸ he)
    rw [if_neg he]
    refine ⟨h.cancelled,?_,?_,by rw [ho]; exact h.destroyed,fun hn => absurd (hs ▸ hn) hne⟩
    · rw [hs]
      exact iff_of_false (by simp [gTaskReturnError]) hne
    · show t.returned++[.error e] = _
      rw [hs,h.returned,hnone]
      rfl

theorem step_open {calls : List (Call E α)} {t t' : GTask E α} {c : Call E α}
    (hc : c.isCancel = false) (h : Open calls t) (hs : step t c = some t') :
    Open (calls++[c]) t' ∨ ReturnedBy calls c t' := by
  cases c with
  | cancel => cases hc
  | increment =>
    simp only [step] at hs
    split_ifs at hs with hp
    cases hs
    exact Or.inl (increment_step_open h)
  | returnBoolean b =>
    simp only [step] at hs
    split_ifs at hs with hp
    rw [returnBoolean_open t b hp h.cancelled] at hs
    split_ifs at hs with hl
    · cases hs
      exact Or.inr (value_returnedBy h rfl rfl hl)
    · cases hs
      exact Or.inl (release_open h hp rfl hl (by simp [callOwned,← h.destroyed]))
  | returnPointer a d =>
    simp only [step] at hs
    split_ifs at hs with hp
    rw [returnPointer_open t a d hp h.cancelled] at hs
    split_ifs at hs with hl hd
    · cases hs
      exact Or.inr (value_returnedBy h rfl rfl hl)
    · cases hs
      exact Or.inl (release_open h hp rfl hl (by simp [callOwned,hd,h.destroyed]))
    · cases hs
      exact Or.inl (release_open h hp rfl hl (by simp [callOwned,hd,← h.destroyed]))
  | returnError e =>
    simp only [step] at hs
    split_ifs at hs with hp
    cases hs
    exact Or.inl (error_step_open h hp)

theorem run_open {calls : List (Call E α)} {s t : GTask E α} (h : Open [] s)
    (hc : ∀ c ∈ calls, c.isCancel = false) (hr : run step calls s = some t) :
    Open calls t ∨ ∃ cs c m, calls = cs++[c] ∧ run step cs s = some m ∧ Open cs m ∧
      ReturnedBy cs c t := by
  induction calls using List.reverseRecOn generalizing t with
  | nil =>
    cases hr
    exact Or.inl h
  | append_singleton cs c ih =>
    obtain ⟨m,hm,hs⟩ := run_snoc.mp hr
    rcases ih (fun d hd => hc d (List.mem_append_left _ hd)) hm with ho | ⟨ds,d,-,-,-,-,hret⟩
    · rcases step_open (hc c (by simp)) ho hs with hn | hret
      · exact Or.inl hn
      · exact Or.inr ⟨cs,c,m,rfl,hm,ho,hret⟩
    · -- nothing is pending any more, so only a cancellation could follow
      have hcancel := complete_only_cancel [c] m t hret.pending (run_cons.mpr ⟨t,hs,rfl⟩)
      have hno := hc c (by simp)
      rw [hcancel c (by simp)] at hno
      cases hno

theorem open_not_returned {calls : List (Call E α)} {t : GTask E α} (h : Open calls t)
    (he : passedErrors calls = []) : t.returned = [] := by
  rw [h.returned,he]
  rfl

/-- Until an error is passed, only the call that leaves nothing pending returns
the task, with its own value, and all pointers passed before it are destroyed. -/
theorem value_returned {calls : List (Call E α)} {s t : GTask E α} (h : Open [] s)
    (hc : ∀ c ∈ calls, c.isCancel = false) (hr : run step calls s = some t)
    (he : passedErrors calls = []) (hp : t.pending = 0) :
    ∃ cs c m v, calls = cs++[c] ∧ run step cs s = some m ∧ m.returned = [] ∧
      callValue c = some v ∧ t.returned = [.ok v] ∧ t.destroyed = passedOwned cs := by
  rcases run_open h hc hr with ho | ⟨cs,c,m,rfl,hm,ho,hret⟩
  · exact absurd hp (ho.waiting he).ne'
  · obtain ⟨v,hv,hrv⟩ := hret.returned
    have hn : passedErrors cs = [] := by
      rw [passedErrors_snoc] at he
      exact (List.append_eq_nil_iff.mp he).1
    exact ⟨cs,c,m,v,rfl,hm,open_not_returned ho hn,hv,hrv,hret.destroyed⟩

theorem not_returned {calls : List (Call E α)} {s t : GTask E α} (h : Open [] s)
    (hc : ∀ c ∈ calls, c.isCancel = false) (hr : run step calls s = some t)
    (he : passedErrors calls = []) (hp : 0 < t.pending) :
    t.returned = [] ∧ t.destroyed = passedOwned calls := by
  rcases run_open h hc hr with ho | ⟨cs,c,m,-,-,-,hret⟩
  · exact ⟨open_not_returned ho he,ho.destroyed⟩
  · exact absurd hret.pending hp.ne'

theorem passedErrors_first (cs rest : List (Call E α)) (e : E) (he : passedErrors cs = []) :
    (passedErrors (cs++.returnError e::rest)).head? = some e := by
  rw [passedErrors] at he ⊢
  rw [List.filterMap_append,he]
  rfl

/-- Once an error was passed the task stays returned with the first, and all
pointers are destroyed. -/
theorem error_returned (cs rest : List (Call E α)) {e : E} {s t : GTask E α} (h : Open [] s)
    (hc : ∀ c ∈ cs++.returnError e::rest, c.isCancel = false)
    (hr : run step (cs++.returnError e::rest) s = some t) (he : passedErrors cs = []) :
    t.returned = [.error e] ∧ t.destroyed = passedOwned (cs++.returnError e::rest) := by
  have hfirst := passedErrors_first cs rest e he
  rcases run_open h hc hr with ho | ⟨ds,d,m,heq,-,-,hret⟩
  · rw [ho.returned,hfirst]
    exact ⟨rfl,ho.destroyed⟩
  · rw [heq,hret.noError] at hfirst
    cases hfirst

/-- An uncancelled task is returned by the call that leaves nothing pending, with
the value of that call, if no error is passed, and else by the first of the
errors. Of the pointers passed with a destroy function all are destroyed, each
once, but the one it is returned with. -/
theorem returned_with (n : ℕ) (hn : 1 ≤ n) (calls : List (Call E α)) (t : GTask E α)
    (hc : ∀ c ∈ calls, c.isCancel = false) (hr : run step calls (attached n) = some t) :
    (passedErrors calls = [] →
      (0 < t.pending → t.returned = [] ∧ t.destroyed = passedOwned calls) ∧
      (t.pending = 0 → ∃ cs c m v, calls = cs++[c] ∧ run step cs (attached n) = some m ∧
        m.returned = [] ∧ callValue c = some v ∧ t.returned = [.ok v] ∧
        t.destroyed = passedOwned cs)) ∧
    (∀ cs e rest, calls = cs++.returnError e::rest → passedErrors cs = [] →
      (∃ m m', run step cs (attached n) = some m ∧ m.returned = [] ∧
        step m (.returnError e) = some m' ∧ m'.returned = [.error e]) ∧
      t.returned = [.error e] ∧ t.destroyed = passedOwned calls) := by
  have h : Open [] (attached n : GTask E α) := attached_open n hn
  refine ⟨fun he => ⟨not_returned h hc hr he,value_returned h hc hr he⟩,?_⟩
  rintro cs e rest rfl he
  refine ⟨?_,error_returned cs rest h hc hr he⟩
  obtain ⟨m,hm,hrest⟩ := run_append_some.mp hr
  obtain ⟨m',hs,-⟩ := run_cons.mp hrest
  have hcs : ∀ c ∈ cs, c.isCancel = false := fun c hm => hc c (List.mem_append_left _ hm)
  have hfirst := error_returned cs [] h
    (fun c hm => hc c (by
      rcases List.mem_append.mp hm with hm | hm
      · exact List.mem_append_left _ hm
      · rw [List.mem_singleton.mp hm]
        simp)) (run_snoc.mpr ⟨m,hm,hs⟩) he
  have hpos : 0 < m.pending := by
    by_contra hz
    simp [step,hz] at hs
  exact ⟨m,m',hm,(not_returned h hcs hm he hpos).1,hs,hfirst.1⟩

theorem returned_with_example :
    passedErrors ([.increment, .returnPointer 7 true, .returnBoolean false,
        .returnPointer 8 true] : List (Call Unit ℕ)) = [] ∧
      ∃ (cs : List (Call Unit ℕ)) (c : Call Unit ℕ) (m : GTask Unit ℕ) (v : TaskValue ℕ),
        [.increment, .returnPointer 7 true, .returnBoolean false, .returnPointer 8 true] =
          cs++[c] ∧ run step cs (attached 2) = some m ∧ m.returned = [] ∧
        callValue c = some v ∧ [Except.ok (.pointer 8)] = [(.ok v : Except Unit (TaskValue ℕ))] ∧
        [7] = passedOwned cs :=
  ⟨rfl,((returned_with 2 (by decide) _ ⟨0, false, false, [.ok (.pointer 8)], [7]⟩ (by decide)
    (by decide)).1 rfl).2 rfl⟩

end EosPayg.TaskValues
