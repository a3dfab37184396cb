import EosPayg.GuardedRun

/-!
# Runs that stay near an exact one

A system puts out events as it runs, and an exact machine takes them. Where each event
costs a little more difference between the two, a whole run stays within what its
events cost.
-/

set_option autoImplicit false

namespace EosPayg.ErrorBudget
open EosPayg.GuardedRun

variable {S A E M : Type*}

def replay (take : M → E → M) (events : List E) (m : M) : M := events.foldl take m

def budget (cost : E → ℕ) (events : List E) : ℕ := (events.map cost).sum

@[simp]
theorem replay_nil (take : M → E → M) (m : M) : replay take [] m = m := rfl

@[simp]
theorem budget_nil (cost : E → ℕ) : budget cost [] = 0 := rfl

@[simp]
theorem replay_singleton (take : M → E → M) (x : E) (m : M) : replay take [x] m = take m x := rfl

@[simp]
theorem budget_singleton (cost : E → ℕ) (x : E) : budget cost [x] = cost x := by
  simp [budget]

theorem replay_append (take : M → E → M) (xs ys : List E) (m : M) :
    replay take (xs++ys) m = replay take ys (replay take xs m) := List.foldl_append

theorem budget_append (cost : E → ℕ) (xs ys : List E) :
    budget cost (xs++ys) = budget cost xs+budget cost ys := by
  simp [budget]

variable {step : S → A → Option S} {emits : S → A → List E}

/-- What is near at first is near in the end, with all that was put out in between added
to the difference. -/
theorem run_near {take : M → E → M} {cost : E → ℕ} {P : S → A → Prop} {Near : ℕ → S → M → Prop}
    (hstep : ∀ e s m a s', Near e s m → P s a → step s a = some s' →
      Near (e+budget cost (emits s a)) s' (replay take (emits s a) m))
    {as : List A} {s t : S} {m : M} {e : ℕ} (h : Near e s m) (hp : Along step P as s)
    (hr : run step as s = some t) :
    Near (e+budget cost (trace step emits as s)) t (replay take (trace step emits as s) m) := by
  induction as generalizing s m e with
  | nil =>
    cases hr
    exact h
  | cons a as ih =>
    obtain ⟨s',hs,ht⟩ := run_cons.mp hr
    rw [trace_cons hs,replay_append,budget_append,← Nat.add_assoc]
    exact ih (hstep e s m a s' h hp.1 hs) (hp.2 s' hs) ht

end EosPayg.ErrorBudget
