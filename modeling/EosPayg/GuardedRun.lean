import Mathlib.Tactic

/-!
# Runs of a guarded step function

A step either refuses its action or gives the next state. A run applies a
finite list of actions in order and is refused when one of them is. A
condition on state and action may be demanded at every step of a run; the
invariant rules below carry a predicate along exactly those runs.
-/

set_option autoImplicit false

namespace EosPayg.GuardedRun

variable {S A : Type*} (step : S → A → Option S)

def run : List A → S → Option S
  | [], s => some s
  | a::as, s => (step s a).bind (run as)

def Along (P : S → A → Prop) : List A → S → Prop
  | [], _ => True
  | a::as, s => P s a ∧ ∀ s', step s a = some s' → Along P as s'

instance (P : S → A → Prop) [∀ s a, Decidable (P s a)] (as : List A) (s : S) :
    Decidable (Along step P as s) := by
  induction as generalizing s with
  | nil => exact isTrue trivial
  | cons a as ih =>
    exact match h : step s a with
    | none => decidable_of_iff (P s a) (by simp [Along,h])
    | some t =>
      have := ih t
      decidable_of_iff (P s a ∧ Along step P as t) (by simp [Along,h])

def Stays (I : S → Prop) : List A → S → Prop
  | [], s => I s
  | a::as, s => I s ∧ ∀ s', step s a = some s' → Stays I as s'

def Meets (P : S → A → Prop) : List A → S → Prop
  | [], _ => False
  | a::as, s => P s a ∨ ∃ s', step s a = some s' ∧ Meets P as s'

def guarded (P : S → A → Prop) [∀ s a, Decidable (P s a)] (s : S) (a : A) : Option S :=
  if P s a then step s a else none

variable {step}

theorem guarded_some {P : S → A → Prop} [∀ s a, Decidable (P s a)] {s t : S} {a : A} :
    guarded step P s a = some t ↔ P s a ∧ step s a = some t := by
  unfold guarded
  split_ifs with h
  · exact (and_iff_right h).symm
  · exact iff_of_false nofun fun ht => h ht.1

@[simp]
theorem run_nil (s : S) : run step [] s = some s := rfl

theorem run_cons {a : A} {as : List A} {s t : S} :
    run step (a::as) s = some t ↔ ∃ s', step s a = some s' ∧ run step as s' = some t :=
  Option.bind_eq_some_iff

theorem run_append (as bs : List A) (s : S) :
    run step (as++bs) s = (run step as s).bind (run step bs) := by
  induction as generalizing s with
  | nil => rfl
  | cons a as ih =>
    cases h : step s a with
    | none => simp [run,h]
    | some t => simpa [run,h] using ih t

theorem run_append_some {as bs : List A} {s t : S} :
    run step (as++bs) s = some t ↔ ∃ m, run step as s = some m ∧ run step bs m = some t := by
  rw [run_append,Option.bind_eq_some_iff]

theorem run_snoc {as : List A} {a : A} {s t : S} :
    run step (as++[a]) s = some t ↔ ∃ m, run step as s = some m ∧ step m a = some t := by
  rw [run_append_some]
  simp [run_cons]

theorem along_true {P : S → A → Prop} (h : ∀ s a, P s a) (as : List A) (s : S) :
    Along step P as s := by
  induction as generalizing s with
  | nil => trivial
  | cons a as ih => exact ⟨h s a,fun s' _ => ih s'⟩

theorem along_and {P Q : S → A → Prop} {as : List A} {s : S} (hp : Along step P as s)
    (hq : Along step Q as s) : Along step (fun s a => P s a ∧ Q s a) as s := by
  induction as generalizing s with
  | nil => trivial
  | cons a as ih => exact ⟨⟨hp.1,hq.1⟩,fun s' hs => ih (hp.2 s' hs) (hq.2 s' hs)⟩

theorem along_of_forall {P : A → Prop} {as : List A} (h : ∀ a ∈ as, P a) (s : S) :
    Along step (fun _ a => P a) as s := by
  induction as generalizing s with
  | nil => trivial
  | cons a as ih =>
    rw [List.forall_mem_cons] at h
    exact ⟨h.1,fun s' _ => ih h.2 s'⟩

/-- A predicate kept by every step which meets the condition holds at the
end of every run whose steps all meet it. -/
theorem run_invariant_along {P : S → A → Prop} {I : S → Prop}
    (hstep : ∀ s a s', I s → P s a → step s a = some s' → I s')
    {as : List A} {s t : S} (hi : I s) (hp : Along step P as s)
    (hr : run step as s = some t) : I t := by
  induction as generalizing s with
  | nil => rwa [← Option.some.inj hr]
  | cons a as ih =>
    obtain ⟨s',hs,ht⟩ := run_cons.mp hr
    exact ih (hstep s a s' hi hp.1 hs) (hp.2 s' hs) ht

theorem run_invariant {I : S → Prop} (hstep : ∀ s a s', I s → step s a = some s' → I s')
    {as : List A} {s t : S} (hi : I s) (hr : run step as s = some t) : I t :=
  run_invariant_along (P := fun _ _ => True) (fun s a s' h _ => hstep s a s' h) hi
    (along_true (fun _ _ => trivial) as s) hr

/-- When, from an invariant and under a condition, a step keeps a predicate exactly
when it meets another, a run under the first condition stays within the predicate
exactly when all its steps meet the other. -/
theorem stays_iff_along_under {P Q : S → A → Prop} {I J : S → Prop}
    (hkeep : ∀ s a s', J s → Q s a → step s a = some s' → J s')
    (hstep : ∀ s a s', J s → Q s a → I s → step s a = some s' → (I s' ↔ P s a))
    {as : List A} {s t : S} (hj : J s) (hq : Along step Q as s) (hi : I s)
    (hr : run step as s = some t) : Stays step I as s ↔ Along step P as s := by
  induction as generalizing s with
  | nil => exact iff_of_true hi trivial
  | cons a as ih =>
    obtain ⟨s',hs,ht⟩ := run_cons.mp hr
    have hj' := hkeep s a s' hj hq.1 hs
    have hq' := hq.2 s' hs
    have hk := hstep s a s' hj hq.1 hi hs
    constructor
    · rintro ⟨-,h⟩
      have hstay := h s' hs
      have hi' : I s' := by cases as with
        | nil => exact hstay
        | cons b bs => exact hstay.1
      refine ⟨hk.mp hi',fun u hu => ?_⟩
      rw [hs] at hu
      cases hu
      exact (ih hj' hq' hi' ht).mp hstay
    · rintro ⟨hp,h⟩
      refine ⟨hi,fun u hu => ?_⟩
      rw [hs] at hu
      cases hu
      exact (ih hj' hq' (hk.mpr hp) ht).mpr (h s' hs)

theorem stays_iff_along_of_invariant {P : S → A → Prop} {I J : S → Prop}
    (hkeep : ∀ s a s', J s → step s a = some s' → J s')
    (hstep : ∀ s a s', J s → I s → step s a = some s' → (I s' ↔ P s a))
    {as : List A} {s t : S} (hj : J s) (hi : I s) (hr : run step as s = some t) :
    Stays step I as s ↔ Along step P as s :=
  stays_iff_along_under (Q := fun _ _ => True) (fun s a s' h _ => hkeep s a s' h)
    (fun s a s' h _ => hstep s a s' h) hj (along_true (fun _ _ => trivial) as s) hi hr

theorem stays_iff_along {P : S → A → Prop} {I : S → Prop}
    (hstep : ∀ s a s', I s → step s a = some s' → (I s' ↔ P s a))
    {as : List A} {s t : S} (hi : I s) (hr : run step as s = some t) :
    Stays step I as s ↔ Along step P as s :=
  stays_iff_along_of_invariant (J := fun _ => True) (fun _ _ _ _ _ => trivial)
    (fun s a s' _ => hstep s a s') trivial hi hr

theorem along_congr {P Q : S → A → Prop} {I : S → Prop}
    (hstep : ∀ s a s', I s → step s a = some s' → I s')
    (h : ∀ s a s', I s → step s a = some s' → (P s a ↔ Q s a))
    {as : List A} {s t : S} (hi : I s) (hr : run step as s = some t) :
    Along step P as s ↔ Along step Q as s := by
  induction as generalizing s with
  | nil => exact Iff.rfl
  | cons a as ih =>
    obtain ⟨s',hs,ht⟩ := run_cons.mp hr
    have hrest (u : S) (hu : step s a = some u) : Along step P as u ↔ Along step Q as u := by
      rw [hs] at hu
      cases hu
      exact ih (hstep s a s' hi hs) ht
    exact and_congr (h s a s' hi hs) (forall_congr' fun u => forall_congr' (hrest u))

theorem stays_mono {I I' : S → Prop} (h : ∀ s, I s → I' s) {as : List A} {s : S}
    (hi : Stays step I as s) : Stays step I' as s := by
  induction as generalizing s with
  | nil => exact h s hi
  | cons a as ih => exact ⟨h s hi.1,fun s' hs => ih (hi.2 s' hs)⟩

theorem stays_along {P : S → A → Prop} {I : S → Prop} (h : ∀ s a, I s → P s a) {as : List A}
    {s : S} (hi : Stays step I as s) : Along step P as s := by
  induction as generalizing s with
  | nil => trivial
  | cons a as ih => exact ⟨h s a hi.1,fun s' hs => ih (hi.2 s' hs)⟩

theorem along_of_invariant {P : S → A → Prop} {I : S → Prop}
    (hstep : ∀ s a s', I s → step s a = some s' → I s')
    (h : ∀ s a s', I s → step s a = some s' → P s a)
    {as : List A} {s t : S} (hi : I s) (hr : run step as s = some t) : Along step P as s :=
  (along_congr hstep (fun s a s' hi hs => iff_of_true (h s a s' hi hs) trivial) hi hr).mpr
    (along_true (P := fun _ _ => True) (fun _ _ => trivial) as s)

theorem along_of_invariant_along {P Q : S → A → Prop} {I : S → Prop}
    (hstep : ∀ s a s', I s → Q s a → step s a = some s' → I s')
    (h : ∀ s a, I s → Q s a → P s a) {as : List A} {s : S} (hi : I s)
    (hq : Along step Q as s) : Along step P as s := by
  induction as generalizing s with
  | nil => trivial
  | cons a as ih =>
    exact ⟨h s a hi hq.1,fun s' hs => ih (hstep s a s' hi hq.1 hs) (hq.2 s' hs)⟩

/-- Along a condition, a flag that is never lowered, and raised by exactly the
steps which meet another, is up at the end of a run when it was up or some step
raised it. -/
theorem raised_iff_meets_along {P Q : S → A → Prop} {J I : S → Prop}
    (hkeep : ∀ s a s', J s → Q s a → step s a = some s' → J s')
    (hstep : ∀ s a s', J s → Q s a → step s a = some s' → (I s' ↔ I s ∨ P s a))
    {as : List A} {s t : S} (hj : J s) (hq : Along step Q as s) (hr : run step as s = some t) :
    I t ↔ I s ∨ Meets step P as s := by
  induction as generalizing s with
  | nil =>
    cases hr
    exact (or_false _).to_iff.symm
  | cons a as ih =>
    obtain ⟨s',hs,ht⟩ := run_cons.mp hr
    have hrest : (∃ u, step s a = some u ∧ Meets step P as u) ↔ Meets step P as s' := by
      rw [hs]
      simp
    rw [ih (hkeep s a s' hj hq.1 hs) (hq.2 s' hs) ht,hstep s a s' hj hq.1 hs,or_assoc]
    show _ ↔ I s ∨ P s a ∨ ∃ u, step s a = some u ∧ Meets step P as u
    rw [hrest]

theorem raised_iff_meets {P : S → A → Prop} {J I : S → Prop}
    (hkeep : ∀ s a s', J s → step s a = some s' → J s')
    (hstep : ∀ s a s', J s → step s a = some s' → (I s' ↔ I s ∨ P s a))
    {as : List A} {s t : S} (hj : J s) (hr : run step as s = some t) :
    I t ↔ I s ∨ Meets step P as s :=
  raised_iff_meets_along (Q := fun _ _ => True) (fun s a s' h _ => hkeep s a s' h)
    (fun s a s' h _ => hstep s a s' h) hj (along_true (fun _ _ => trivial) as s) hr

theorem meets_iff_exists {P : A → Prop} {as : List A} {s t : S} (hr : run step as s = some t) :
    Meets step (fun _ a => P a) as s ↔ ∃ a ∈ as, P a := by
  induction as generalizing s with
  | nil => exact iff_of_false id nofun
  | cons a as ih =>
    obtain ⟨s',hs,ht⟩ := run_cons.mp hr
    show (P a ∨ ∃ u, step s a = some u ∧ Meets step (fun _ a => P a) as u) ↔ _
    rw [hs,List.exists_mem_cons_iff,← ih ht]
    simp

theorem along_iff_forall {P : A → Prop} {as : List A} {s t : S} (hr : run step as s = some t) :
    Along step (fun _ a => P a) as s ↔ ∀ a ∈ as, P a := by
  refine ⟨fun h => ?_,fun h => along_of_forall h s⟩
  induction as generalizing s with
  | nil => exact List.forall_mem_nil _
  | cons a as ih =>
    obtain ⟨s',hs,ht⟩ := run_cons.mp hr
    exact List.forall_mem_cons.mpr ⟨h.1,ih ht (h.2 s' hs)⟩

/-- Each counted action takes a unit off a measure which no action raises. -/
theorem run_work {J : S → Prop} {m : S → ℕ} {c : A → Bool}
    (hkeep : ∀ s a s', J s → step s a = some s' → J s')
    (hstep : ∀ s a s', J s → step s a = some s' → m s'+(if c a then 1 else 0) ≤ m s)
    {as : List A} {s t : S} (hj : J s) (hr : run step as s = some t) :
    m t+as.countP c ≤ m s := by
  induction as generalizing s with
  | nil =>
    cases hr
    exact le_rfl
  | cons a as ih =>
    obtain ⟨s',hs,ht⟩ := run_cons.mp hr
    have hrest := ih (hkeep s a s' hj hs) ht
    have hone := hstep s a s' hj hs
    rw [List.countP_cons]
    omega

theorem along_or_meets {P Q : S → A → Prop} (h : ∀ s a s', step s a = some s' → P s a ∨ Q s a)
    {as : List A} {s t : S} (hr : run step as s = some t) :
    Along step P as s ∨ Meets step Q as s := by
  induction as generalizing s with
  | nil => exact Or.inl trivial
  | cons a as ih =>
    obtain ⟨s',hs,ht⟩ := run_cons.mp hr
    rcases h s a s' hs with hp | hq
    · rcases ih ht with hrest | hrest
      · refine Or.inl ⟨hp,fun u hu => ?_⟩
        rw [hs] at hu
        cases hu
        exact hrest
      · exact Or.inr (Or.inr ⟨s',hs,hrest⟩)
    · exact Or.inr (Or.inl hq)

/-- A measure which every step lowers bounds the length of a run. -/
theorem run_descent {P : S → A → Prop} {m : S → ℕ}
    (hstep : ∀ s a s', P s a → step s a = some s' → m s' < m s)
    {as : List A} {s t : S} (hp : Along step P as s) (hr : run step as s = some t) :
    m t+as.length ≤ m s := by
  induction as generalizing s with
  | nil =>
    cases hr
    exact le_rfl
  | cons a as ih =>
    obtain ⟨s',hs,ht⟩ := run_cons.mp hr
    have hrest := ih (hp.2 s' hs) ht
    have hone := hstep s a s' hp.1 hs
    rw [List.length_cons]
    omega

/-- Where some action of a kind goes on to lower a measure, a run of them comes to an
end. -/
theorem exists_run_descent {I Q : S → Prop} {P : A → Prop} {m : S → ℕ}
    (h : ∀ s, I s → Q s ∨ ∃ a s', P a ∧ step s a = some s' ∧ I s' ∧ m s' < m s) {s : S}
    (hi : I s) : ∃ as t, (∀ a ∈ as, P a) ∧ as.length ≤ m s ∧ run step as s = some t ∧ Q t := by
  induction hm : m s using Nat.strong_induction_on generalizing s with
  | _ k ih =>
    rcases h s hi with hq | ⟨a,s',ha,hs,hi',hless⟩
    · exact ⟨[],s,List.forall_mem_nil _,Nat.zero_le k,rfl,hq⟩
    · obtain ⟨as,t,has,hlen,ht,hq⟩ := ih (m s') (hm ▸ hless) hi' rfl
      exact ⟨a::as,t,List.forall_mem_cons.mpr ⟨ha,has⟩,hlen.trans_lt (hm ▸ hless),
        run_cons.mpr ⟨s',hs,ht⟩,hq⟩

theorem exists_run_replicate {I Q : S → Prop} {m : S → ℕ} {a : A}
    (h : ∀ s, I s → Q s ∨ ∃ s', step s a = some s' ∧ I s' ∧ m s' < m s) {s : S} (hi : I s) :
    ∃ n ≤ m s, ∃ t, run step (List.replicate n a) s = some t ∧ Q t := by
  have hmove (s : S) (hi : I s) :
      Q s ∨ ∃ b s', b = a ∧ step s b = some s' ∧ I s' ∧ m s' < m s :=
    (h s hi).imp_right fun ⟨s',hs⟩ => ⟨a,s',rfl,hs⟩
  obtain ⟨as,t,has,hlen,ht,hq⟩ := exists_run_descent hmove hi
  rw [List.eq_replicate_of_mem has] at ht
  exact ⟨as.length,hlen,t,ht,hq⟩

theorem run_antitone {P : S → A → Prop} {m : S → ℕ}
    (hstep : ∀ s a s', P s a → step s a = some s' → m s' ≤ m s)
    {as : List A} {s t : S} (hp : Along step P as s) (hr : run step as s = some t) :
    m t ≤ m s := by
  refine run_invariant_along (P := P) (I := fun u => m u ≤ m s) ?_ le_rfl hp hr
  intro u a u' hu hpu hs
  exact (hstep u a u' hpu hs).trans hu

def trace {E : Type*} (step : S → A → Option S) (emits : S → A → List E) : List A → S → List E
  | [], _ => []
  | a::as, s => emits s a++((step s a).map (trace step emits as)).getD []

theorem trace_cons {E : Type*} {emits : S → A → List E} {a : A} {as : List A} {s s' : S}
    (hs : step s a = some s') : trace step emits (a::as) s = emits s a++trace step emits as s' := by
  rw [trace,hs]
  rfl

/-- Where every step of one machine is a run of another, so is a run. -/
theorem run_simulated {T B : Type*} {step' : T → B → Option T} {emits : S → A → List B}
    {R : S → T → Prop}
    (hstep : ∀ s a s' t, R s t → step s a = some s' →
      ∃ t', run step' (emits s a) t = some t' ∧ R s' t')
    {as : List A} {s s' : S} {t : T} (h : R s t) (hr : run step as s = some s') :
    ∃ t', run step' (trace step emits as s) t = some t' ∧ R s' t' := by
  induction as generalizing s t with
  | nil =>
    cases hr
    exact ⟨t,rfl,h⟩
  | cons a as ih =>
    obtain ⟨m,hs,hm⟩ := run_cons.mp hr
    obtain ⟨u,hu,hR⟩ := hstep s a m t h hs
    obtain ⟨t',ht,hR'⟩ := ih hR hm
    exact ⟨t',by rw [trace_cons hs]; exact run_append_some.mpr ⟨u,hu,ht⟩,hR'⟩

end EosPayg.GuardedRun
