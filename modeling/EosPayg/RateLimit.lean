import EosPayg.CodeLedger
import EosPayg.SlidingWindow

/-!
# The rate limit over whole runs of attempts

The attempt history is a ring over the calls made since the last accepted
code. Its window starts at `now-1800` computed on unsigned words, so it is the
intended window only when more than half an hour has passed since boot.
-/

set_option autoImplicit false

namespace EosPayg.RateLimit
open EosPayg.WordArithmetic EosPayg.PaygCodes EosPayg.ManagerState EosPayg.ManagerCode
  EosPayg.CodeLedger EosPayg.SlidingWindow

/-- The times of the calls made since the last accepted code, newest first. -/
def sinceAccepted : List (Attempt × Except ProviderError ℕ) → List UInt64 → List UInt64
  | [], ts => ts
  | (a,r)::calls, ts =>
    sinceAccepted calls (if r.toOption.isSome then [] else a.clock.time::ts)

def earlierCalls (hmac : Hmac) (self : EpgManager) (as : List Attempt) : List UInt64 :=
  sinceAccepted (as.zip (addCodes hmac as self).1) []

def inLastHalfHour (calls : List UInt64) (t : UInt64) : ℕ :=
  calls.countP (fun s => t.toNat ≤ s.toNat+1800)

theorem noAttempts_ring : noAttempts.history = ring 0 rateLimitingNAttempts [] :=
  (ring_nil 0 rateLimitingNAttempts).symm

theorem pushAttempt_ring (r : RateLimiting) (now : UInt64) (ts : List UInt64)
    (h : r.history = ring 0 rateLimitingNAttempts ts) :
    (pushAttempt r now).history = ring 0 rateLimitingNAttempts (now::ts) := by
  show now::r.history.take 9 = ring 0 10 (now::ts)
  rw [h]
  exact ring_push 0 now 9 ts

theorem addCode_history (hmac : Hmac) (self : EpgManager) (a : Attempt)
    (he : self.enabled = true) (ts : List UInt64)
    (h : self.rateLimiting.history = ring 0 rateLimitingNAttempts ts) :
    (addCode hmac self a.clock a.codeStr).2.1.rateLimiting.history =
      ring 0 rateLimitingNAttempts
        (if (addCode hmac self a.clock a.codeStr).1.toOption.isSome then []
          else a.clock.time::ts) := by
  cases hk : acceptedCode hmac self a.clock a.codeStr with
  | some used =>
    have ho : (addCode hmac self a.clock a.codeStr).1.toOption.isSome = true := by
      rw [addCode_accepted hmac self a.clock a.codeStr used hk]
      rfl
    rw [ho,if_pos rfl,addCode_accepted_state hmac self a.clock a.codeStr used hk]
    exact noAttempts_ring
  | none =>
    obtain ⟨⟨e,hr⟩,hs⟩ := addCode_refused hmac self a.clock a.codeStr hk
    have ho : (addCode hmac self a.clock a.codeStr).1.toOption.isSome = false := by
      rw [hr]
      rfl
    rw [ho,if_neg (by simp),hs,if_pos he]
    exact pushAttempt_ring self.rateLimiting a.clock.time ts h

/-- After every run the history is the ring of the calls since the last
accepted code. -/
theorem addCodes_history (hmac : Hmac) (as : List Attempt) (self : EpgManager)
    (he : self.enabled = true) (ts : List UInt64)
    (h : self.rateLimiting.history = ring 0 rateLimitingNAttempts ts) :
    (addCodes hmac as self).2.enabled = true ∧
      (addCodes hmac as self).2.rateLimiting.history = ring 0 rateLimitingNAttempts
        (sinceAccepted (as.zip (addCodes hmac as self).1) ts) := by
  induction as generalizing self ts with
  | nil => exact ⟨he,h⟩
  | cons a as ih =>
    have hk := addCode_settings hmac self a.clock a.codeStr
    exact ih _ (hk.1.trans he) _ (addCode_history hmac self a he ts h)

theorem sinceAccepted_mem (calls : List (Attempt × Except ProviderError ℕ))
    (ts : List UInt64) (t : UInt64) (h : t ∈ sinceAccepted calls ts) :
    t ∈ ts ∨ ∃ c ∈ calls, t = c.1.clock.time := by
  induction calls generalizing ts with
  | nil => exact Or.inl h
  | cons c calls ih =>
    obtain ⟨a,r⟩ := c
    rcases ih _ h with hh | ⟨d,hd,ht⟩
    · by_cases ho : r.toOption.isSome
      · simp [ho] at hh
      · rw [if_neg ho] at hh
        rcases List.mem_cons.mp hh with hh | hh
        · exact Or.inr ⟨(a,r),by simp,hh⟩
        · exact Or.inl hh
    · exact Or.inr ⟨d,by simp [hd],ht⟩

theorem sinceAccepted_sorted (calls : List (Attempt × Except ProviderError ℕ))
    (ts : List UInt64)
    (hc : calls.Pairwise (fun c d => c.1.clock.time ≤ d.1.clock.time))
    (hts : ts.Pairwise (fun s t => t ≤ s))
    (hle : ∀ t ∈ ts, ∀ c ∈ calls, t ≤ c.1.clock.time) :
    (sinceAccepted calls ts).Pairwise (fun s t => t ≤ s) := by
  induction calls generalizing ts with
  | nil => exact hts
  | cons c calls ih =>
    obtain ⟨a,r⟩ := c
    obtain ⟨hac,hc⟩ := List.pairwise_cons.mp hc
    apply ih _ hc
    · split_ifs
      · exact List.Pairwise.nil
      · exact List.pairwise_cons.mpr ⟨fun t ht => hle t ht (a,r) (by simp),hts⟩
    · intro t ht d hd
      split_ifs at ht with ho
      · simp at ht
      · rcases List.mem_cons.mp ht with hh | hh
        · rw [hh]
          exact hac d hd
        · exact hle t hh d (by simp [hd])

theorem addCodes_length (hmac : Hmac) (as : List Attempt) (self : EpgManager) :
    (addCodes hmac as self).1.length = as.length := by
  induction as generalizing self with
  | nil => rfl
  | cons a as ih => exact congrArg Nat.succ (ih _)

theorem earlierCalls_sorted (hmac : Hmac) (self : EpgManager) (as : List Attempt)
    (h : as.Pairwise (fun a b => a.clock.time ≤ b.clock.time)) :
    (earlierCalls hmac self as).Pairwise (fun s t => t ≤ s) := by
  apply sinceAccepted_sorted _ _ _ List.Pairwise.nil (by simp)
  have hm : (as.zip (addCodes hmac as self).1).map Prod.fst = as :=
    List.map_fst_zip (addCodes_length hmac as self).ge
  rw [← hm,List.pairwise_map] at h
  exact h

theorem earlierCalls_le (hmac : Hmac) (self : EpgManager) (as : List Attempt) (t : UInt64)
    (h : ∀ a ∈ as, a.clock.time ≤ t) : ∀ s ∈ earlierCalls hmac self as, s ≤ t := by
  intro s hs
  rcases sinceAccepted_mem _ _ s hs with hm | ⟨c,hc,rfl⟩
  · simp at hm
  · exact h c.1 (List.of_mem_zip hc).1

/-- Past the first half hour the unsigned window is the intended one. -/
theorem window_iff (s t : UInt64) (h : 1800 < t.toNat) :
    t-rateLimitingTimePeriodSecs ≤ s ↔ t.toNat ≤ s.toNat+1800 := by
  have hp : rateLimitingTimePeriodSecs.toNat = 1800 := rfl
  have hs : (t-rateLimitingTimePeriodSecs).toNat = t.toNat-1800 := by
    rw [UInt64.toNat_sub_of_le _ _ (UInt64.le_iff_toNat_le.mpr (by omega)),hp]
  rw [UInt64.le_iff_toNat_le,hs]
  omega

/-- Before, it starts far in the future. -/
theorem window_wraps (s t : UInt64) (h : t.toNat < 1800) (hs : s ≤ t) :
    s < t-rateLimitingTimePeriodSecs := by
  have hp : rateLimitingTimePeriodSecs.toNat = 1800 := rfl
  have hd : (t-rateLimitingTimePeriodSecs).toNat = 18446744073709551616-1800+t.toNat := by
    rw [UInt64.toNat_sub,hp]
    omega
  have hle := UInt64.le_iff_toNat_le.mp hs
  apply UInt64.lt_iff_toNat_lt.mpr
  omega

theorem inLastHalfHour_early (calls : List UInt64) (t : UInt64) (h : t.toNat ≤ 1800) :
    inLastHalfHour calls t = calls.length := by
  apply List.countP_eq_length.mpr
  intro s _
  rw [decide_eq_true_iff]
  omega

theorem attempts_iff (r : RateLimiting) (calls : List UInt64) (t : UInt64)
    (hr : r.history = ring 0 rateLimitingNAttempts calls)
    (hs : calls.Pairwise (fun s u => u ≤ s)) (hle : ∀ s ∈ calls, s ≤ t) :
    rateLimitingNAttempts ≤ attemptsInLastPeriod r t ↔
      t.toNat = 1800 ∨ (1800 < t.toNat ∧ 10 ≤ inLastHalfHour calls t) := by
  have hp : rateLimitingTimePeriodSecs.toNat = 1800 := rfl
  unfold attemptsInLastPeriod
  rw [hr]
  rcases Nat.lt_trichotomy t.toNat 1800 with h | h | h
  · have hz : (ring 0 rateLimitingNAttempts calls).countP
        (fun s => s ≥ t-rateLimitingTimePeriodSecs) = 0 := by
      apply List.countP_eq_zero.mpr
      intro s hm
      have hst : s ≤ t := by
        rcases mem_ring hm with hm | hm
        · exact hle s hm
        · rw [hm]
          exact UInt64.zero_le
      simpa using window_wraps s t h hst
    rw [hz]
    simp only [rateLimitingNAttempts]
    omega
  · have ht : t = rateLimitingTimePeriodSecs := UInt64.toNat_inj.mp (h.trans hp.symm)
    have hf : (ring 0 rateLimitingNAttempts calls).countP
        (fun s => s ≥ t-rateLimitingTimePeriodSecs) = rateLimitingNAttempts := by
      refine (List.countP_eq_length.mpr ?_).trans (ring_length 0 _ calls)
      intro s _
      rw [ht,UInt64.sub_self]
      exact decide_eq_true UInt64.zero_le
    rw [hf]
    exact ⟨fun _ => Or.inl h,fun _ => le_rfl⟩
  · have hz : decide ((0 : UInt64) ≥ t-rateLimitingTimePeriodSecs) = false := by
      apply decide_eq_false
      show ¬ t-rateLimitingTimePeriodSecs ≤ 0
      rw [window_iff 0 t h,UInt64.toNat_zero]
      omega
    have hd : calls.Pairwise (fun s u => decide (u ≥ t-rateLimitingTimePeriodSecs) = true →
        decide (s ≥ t-rateLimitingTimePeriodSecs) = true) := by
      apply hs.imp
      intro s u hus hu
      exact decide_eq_true (UInt64.le_trans (of_decide_eq_true hu) hus)
    have hc : calls.countP (fun s => s ≥ t-rateLimitingTimePeriodSecs) =
        inLastHalfHour calls t := by
      apply List.countP_congr
      intro s _
      rw [decide_eq_true_iff,decide_eq_true_iff]
      exact window_iff s t h
    rw [ring_full_iff (fun s : UInt64 => decide (s ≥ t-rateLimitingTimePeriodSecs)) hz _ calls hd,
      hc]
    simp only [rateLimitingNAttempts]
    omega

/-- An attempt after any run is rate-limited as intended exactly when more
than half an hour has passed since boot, or the count alone decides alike. -/
theorem limited_as_intended_iff (hmac : Hmac) (self : EpgManager) (as : List Attempt)
    (a : Attempt) (he : self.enabled = true) (hr : self.rateLimiting = noAttempts)
    (hm : (as ++ [a]).Pairwise (fun b c => b.clock.time ≤ c.clock.time)) :
    let earlier := earlierCalls hmac self as
    let t := a.clock.time
    ((addCode hmac (addCodes hmac as self).2 a.clock a.codeStr).1 =
        .error tooManyAttemptsError ↔ 10 ≤ inLastHalfHour earlier t) ↔
      1800 < t.toNat ∨ (t.toNat < 1800 ∧ earlier.length < 10) ∨
        (t.toNat = 1800 ∧ 10 ≤ earlier.length) := by
  intro earlier t
  obtain ⟨has,-,hle⟩ := List.pairwise_append.mp hm
  have hh := addCodes_history hmac as self he [] (by rw [hr]; exact noAttempts_ring)
  have ht : ∀ s ∈ earlier, s ≤ t :=
    earlierCalls_le hmac self as t (fun b hb => hle b hb a (by simp))
  rw [addCode_limited_iff hmac _ a.clock a.codeStr hh.1,
    attempts_iff _ earlier t hh.2 (earlierCalls_sorted hmac self as has) ht]
  rcases Nat.lt_trichotomy t.toNat 1800 with h | h | h
  · have hc := inLastHalfHour_early earlier t (by omega)
    omega
  · have hc := inLastHalfHour_early earlier t (by omega)
    omega
  · omega

def wrongStrings : List Attempt :=
  (List.range 10).map (fun i => ⟨⟨UInt64.ofNat (3000+60*i), 0, true⟩, []⟩)

theorem limited_as_intended_example :
    let a : Attempt := ⟨⟨3600, 0, true⟩, []⟩
    ((addCode zeroHmac (addCodes zeroHmac wrongStrings freshManager).2 a.clock a.codeStr).1 =
        .error tooManyAttemptsError ↔
      10 ≤ inLastHalfHour (earlierCalls zeroHmac freshManager wrongStrings) 3600) :=
  (limited_as_intended_iff zeroHmac freshManager wrongStrings ⟨⟨3600, 0, true⟩, []⟩ rfl rfl
    (by decide +kernel)).mpr (Or.inl (by decide))

/-- The very first call, made half an hour after boot, is rate-limited. -/
theorem first_call_limited :
    ¬ ∀ (as : List Attempt) (a : Attempt),
      (as ++ [a]).Pairwise (fun b c => b.clock.time ≤ c.clock.time) →
      (∀ b ∈ as ++ [a], 1 ≤ b.clock.time.toNat) →
      ((addCode zeroHmac (addCodes zeroHmac as freshManager).2 a.clock a.codeStr).1 =
          .error tooManyAttemptsError ↔
        10 ≤ inLastHalfHour (earlierCalls zeroHmac freshManager as) a.clock.time) := by
  intro h
  have hl := (h [] ⟨⟨1800, 0, true⟩, []⟩ (by decide) (by decide)).mp (by decide +kernel)
  have hn : ¬ 10 ≤ inLastHalfHour (earlierCalls zeroHmac freshManager []) 1800 := by decide
  exact hn hl

end EosPayg.RateLimit
