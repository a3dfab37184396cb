import Mathlib.Tactic

/-!
# A periodic timer which is read when it is ready

A timer armed with a period expires at its creation plus every positive
multiple of the period, and never when the period is zero. It is ready while
there are expirations its owner has not read; reading takes all of them.
-/

set_option autoImplicit false

namespace EosPayg.PeriodicTimer

structure Timer where
  created : ℕ
  period : ℕ
  lastRead : ℕ
  ordered : created ≤ lastRead
  deriving DecidableEq

def arm (now period : ℕ) : Timer := ⟨now, period, now, le_rfl⟩

/-- The number of expirations up to a time; dividing by zero gives zero. -/
def expirations (tm : Timer) (t : ℕ) : ℕ := (t-tm.created)/tm.period

def ready (tm : Timer) (now : ℕ) : Bool := expirations tm tm.lastRead < expirations tm now

def read (tm : Timer) (now : ℕ) : Timer where
  created := tm.created
  period := tm.period
  lastRead := max tm.lastRead now
  ordered := tm.ordered.trans (le_max_left _ _)

def Pending (tm : Timer) (t : ℕ) : Prop :=
  tm.lastRead < t ∧ ∃ k, 1 ≤ k ∧ t = tm.created+k*tm.period

theorem pending_arm (now period k : ℕ) (hp : 0 < period) (hk : 1 ≤ k) :
    Pending (arm now period) (now+k*period) := by
  constructor
  · show now < now+k*period
    have := Nat.mul_pos hk hp
    omega
  · exact ⟨k,hk,rfl⟩

theorem ready_of_pending {tm : Timer} {t now : ℕ} (h : Pending tm t) (ht : t ≤ now) :
    ready tm now = true := by
  obtain ⟨hl,k,hk,he⟩ := h
  have ho := tm.ordered
  have hp : 0 < tm.period := by
    apply Nat.pos_of_ne_zero
    intro hz
    rw [hz,Nat.mul_zero] at he
    omega
  have hbefore : expirations tm tm.lastRead < k := by
    apply (Nat.div_lt_iff_lt_mul hp).mpr
    omega
  have hafter : k ≤ expirations tm now := by
    apply (Nat.le_div_iff_mul_le hp).mpr
    omega
  exact decide_eq_true (hbefore.trans_le hafter)

theorem pending_read {tm : Timer} {t now : ℕ} (h : Pending tm t) (ht : now < t) :
    Pending (read tm now) t :=
  ⟨max_lt h.1 ht,h.2⟩

/-- Until it is first read, a timer is ready from its first expiration on. -/
theorem ready_arm_iff (now period t : ℕ) :
    ready (arm now period) t = true ↔ 0 < period ∧ now+period ≤ t := by
  have hzero : expirations (arm now period) now = 0 := by
    show (now-now)/period = 0
    rw [Nat.sub_self,Nat.zero_div]
  show decide (expirations (arm now period) now < (t-now)/period) = true ↔ _
  rw [hzero,decide_eq_true_iff,Nat.div_pos_iff]
  omega

end EosPayg.PeriodicTimer
