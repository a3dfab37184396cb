import EosPayg.CodeStrings
import EosPayg.RateLimit
import Mathlib.Data.FinEnum

/-!
# What a client that guesses codes can reach

The limiter counts calls and is cleared by every accepted code. From the second half hour
after boot it lets a limited number of strings through to the comparison with the key; and
under every key the same number of strings would be accepted.
-/

set_option autoImplicit false

namespace EosPayg.Guessing
open EosPayg.WordArithmetic EosPayg.PaygCodes EosPayg.ManagerState EosPayg.ManagerCode
  EosPayg.CodeLedger EosPayg.SlidingWindow EosPayg.RateLimit EosPayg.CodeAcceptance
  EosPayg.CodeStrings

def codeString (hmac : Hmac) (key : List UInt8) (used : UsedCode) : List UInt8 :=
  decimalDigits 8 (generated hmac used.period used.counter key).toNat

theorem verified_iff (hmac : Hmac) (key : List UInt8) (hk : 64 ≤ key.length) (s : List UInt8)
    (used : UsedCode) : verifiedCode hmac key s = some used ↔ s = codeString hmac key used := by
  rw [verifiedCode_some_iff]
  constructor
  · rintro ⟨code,hparse,hverify⟩
    rw [(epcVerifyCode_ok_iff hmac code key hk _ _).mp hverify] at hparse
    have hformat := (parse_format s _ hparse).2
    rw [epcFormatCodeChecked_eq _ (generated_lt hmac _ _ key)] at hformat
    exact (Option.some.inj hformat).symm
  · rintro rfl
    exact ⟨_,format_parse _ (generated_lt hmac _ _ key),
      (epcVerifyCode_ok_iff hmac _ key hk _ _).mpr rfl⟩

theorem codeString_injective (hmac : Hmac) (key : List UInt8) (hk : 64 ≤ key.length) :
    Function.Injective (codeString hmac key) := by
  intro used used' h
  have hv := (verified_iff hmac key hk _ used).mpr rfl
  rw [h,(verified_iff hmac key hk _ used').mpr rfl] at hv
  exact (Option.some.inj hv).symm

instance : Fintype EpcPeriod := ⟨EpcPeriod.all.toFinset,fun p => List.mem_toFinset.mpr p.mem_all⟩

def usedCodeEquiv : UsedCode ≃ UInt8 × EpcPeriod where
  toFun used := (used.counter,used.period)
  invFun p := ⟨p.1,p.2⟩
  left_inv _ := rfl
  right_inv _ := rfl

theorem card_usedCode : Nat.card UsedCode = 256*27 := by
  have hbyte : Nat.card UInt8 = 256 := by
    rw [Nat.card_eq_fintype_card,← FinEnum.card_eq_fintypeCard,FinEnum.card_UInt8]
    rfl
  have hperiod : Nat.card EpcPeriod = 27 := by
    rw [Nat.card_eq_fintype_card]
    decide
  rw [Nat.card_congr usedCodeEquiv,Nat.card_prod,hbyte,hperiod]

theorem accepted_count (hmac : Hmac) (key : List UInt8) (hk : 64 ≤ key.length) :
    {s | (verifiedCode hmac key s).isSome}.ncard = 6912 := by
  have hrange : {s | (verifiedCode hmac key s).isSome} = Set.range (codeString hmac key) := by
    ext s
    show (verifiedCode hmac key s).isSome = true ↔ ∃ used, codeString hmac key used = s
    rw [Option.isSome_iff_exists]
    exact exists_congr fun used => (verified_iff hmac key hk s used).trans eq_comm
  rw [hrange,← Nat.card_coe_set_eq,
    ← Nat.card_congr (Equiv.ofInjective _ (codeString_injective hmac key hk)),card_usedCode]

def weighs (lo span : ℕ) (call : Attempt × Except ProviderError ℕ) : Bool :=
  lo ≤ call.1.clock.time.toNat ∧ call.1.clock.time.toNat ≤ lo+span ∧
    call.2 ≠ .error tooManyAttemptsError

def accepts (call : Attempt × Except ProviderError ℕ) : Bool := call.2.toOption.isSome

theorem weighs_spaced {hmac : Hmac} {m : EpgManager} (he : m.enabled = true) {ts : List UInt64}
    (hr : m.rateLimiting.history = ring 0 rateLimitingNAttempts ts) {a : Attempt}
    (hs : ts.Pairwise (fun s u => u ≤ s)) (hle : ∀ s ∈ ts, s ≤ a.clock.time) {lo span : ℕ}
    (hlo : 1800 < lo) {gs : List ℕ} (hg : Spaced 10 1801 gs)
    (hsub : gs.Sublist (ts.map UInt64.toNat))
    (hw : weighs lo span (a,(addCode hmac m a.clock a.codeStr).1) = true) :
    Spaced 10 1801 (a.clock.time.toNat::gs) := by
  obtain ⟨hlate,-,hfree⟩ := of_decide_eq_true hw
  have hnot := fun h => hfree ((addCode_limited_iff hmac m a.clock a.codeStr he).mpr h)
  rw [attempts_iff m.rateLimiting ts a.clock.time hr hs hle] at hnot
  refine spaced_push (by decide) hg hsub ?_ ?_
  · exact List.pairwise_map.mpr (hs.imp fun h => UInt64.le_iff_toNat_le.mp h)
  · rw [List.countP_map]
    by_contra hfew
    apply hnot
    right
    refine ⟨hlate.trans_lt' hlo,?_⟩
    refine (Nat.not_lt.mp hfew).trans (le_of_eq (List.countP_congr fun s _ => ?_))
    simp only [Function.comp_apply,decide_eq_true_iff]
    omega

theorem weighed_le (hmac : Hmac) (lo span : ℕ) (hlo : 1800 < lo) (as : List Attempt)
    (m : EpgManager) (he : m.enabled = true) (ts : List UInt64)
    (hr : m.rateLimiting.history = ring 0 rateLimitingNAttempts ts)
    (hs : ts.Pairwise (fun s u => u ≤ s)) (hle : ∀ s ∈ ts, ∀ a ∈ as, s ≤ a.clock.time)
    (has : as.Pairwise (fun a b => a.clock.time ≤ b.clock.time)) (gs : List ℕ)
    (hg : Spaced 10 1801 gs) (hsub : gs.Sublist (ts.map UInt64.toNat))
    (hin : ∀ g ∈ gs, lo ≤ g ∧ g ≤ lo+span) :
    gs.length+(as.zip (addCodes hmac as m).1).countP (weighs lo span) ≤
      10*(span/1801+1)*((as.zip (addCodes hmac as m).1).countP accepts+1) := by
  induction as generalizing m ts gs with
  | nil =>
    have hlen := spaced_length (by decide) (by decide) hg hin
    simpa [addCodes] using hlen
  | cons a as ih =>
    obtain ⟨ha,has⟩ := List.pairwise_cons.mp has
    have hhist := addCode_history hmac m a he ts hr
    have hen : (addCode hmac m a.clock a.codeStr).2.1.enabled = true :=
      (addCode_settings hmac m a.clock a.codeStr).1.trans he
    have hcall : ∀ s ∈ ts, s ≤ a.clock.time := fun s hm => hle s hm a List.mem_cons_self
    have hspaced (hw : weighs lo span (a,(addCode hmac m a.clock a.codeStr).1) = true) :=
      weighs_spaced he hr hs hcall hlo hg hsub hw
    obtain ⟨gs',hg',hsub',hin',hlen⟩ : ∃ gs' : List ℕ, Spaced 10 1801 gs' ∧
        gs'.Sublist ((a.clock.time::ts).map UInt64.toNat) ∧
        (∀ g ∈ gs', lo ≤ g ∧ g ≤ lo+span) ∧ gs'.length = gs.length+
          if weighs lo span (a,(addCode hmac m a.clock a.codeStr).1) then 1 else 0 := by
      by_cases hw : weighs lo span (a,(addCode hmac m a.clock a.codeStr).1) = true
      · refine ⟨a.clock.time.toNat::gs,hspaced hw,hsub.cons_cons _,?_,by simp [hw]⟩
        obtain ⟨hge,hup,-⟩ := of_decide_eq_true hw
        exact List.forall_mem_cons.mpr ⟨⟨hge,hup⟩,hin⟩
      · exact ⟨gs,hg,hsub.cons _,hin,by simp [hw]⟩
    have hzip : (a::as).zip (addCodes hmac (a::as) m).1 =
        (a,(addCode hmac m a.clock a.codeStr).1)::
          as.zip (addCodes hmac as (addCode hmac m a.clock a.codeStr).2.1).1 := rfl
    rw [hzip,List.countP_cons,List.countP_cons]
    by_cases hacc : accepts (a,(addCode hmac m a.clock a.codeStr).1) = true
    · -- an accepted code clears the history, and the count begins anew
      rw [if_pos (show (addCode hmac m a.clock a.codeStr).1.toOption.isSome = true from hacc)]
        at hhist
      have hrest := ih _ hen [] hhist List.Pairwise.nil (List.forall_mem_nil _) has [] trivial
        (List.nil_sublist _) (List.forall_mem_nil _)
      have hone := spaced_length (by decide) (by decide) hg' hin'
      rw [if_pos hacc,Nat.mul_succ]
      rw [List.length_nil] at hrest
      omega
    · rw [if_neg (show ¬(addCode hmac m a.clock a.codeStr).1.toOption.isSome = true from hacc)]
        at hhist
      have hsorted : (a.clock.time::ts).Pairwise (fun s u => u ≤ s) :=
        List.pairwise_cons.mpr ⟨hcall,hs⟩
      have hbefore : ∀ s ∈ a.clock.time::ts, ∀ b ∈ as, s ≤ b.clock.time := by
        intro s hm b hb
        rcases List.mem_cons.mp hm with rfl | hm
        · exact ha b hb
        · exact hle s hm b (List.mem_cons_of_mem _ hb)
      have hrest := ih _ hen _ hhist hsorted hbefore has gs' hg' hsub' hin'
      rw [if_neg hacc]
      simp only [Nat.add_zero]
      omega

/-- Under every key 6912 of the strings of eight digits are accepted. In any run of calls
on a manager, in any span of time that begins more than half an hour after boot, at most
ten strings for every 1801 seconds begun are looked at, and as many again for every
code that is accepted. -/
theorem guesses_bounded (hmac : Hmac) (m : EpgManager) (as : List Attempt)
    (he : m.enabled = true) (hk : 64 ≤ m.keyBytes.length) (hr : m.rateLimiting = noAttempts)
    (has : as.Pairwise (fun a b => a.clock.time ≤ b.clock.time)) (lo span : ℕ)
    (hlo : 1800 < lo) :
    {s | (verifiedCode hmac m.keyBytes s).isSome}.ncard = 6912 ∧
      (as.zip (addCodes hmac as m).1).countP (weighs lo span) ≤
        10*(span/1801+1)*((as.zip (addCodes hmac as m).1).countP accepts+1) := by
  refine ⟨accepted_count hmac m.keyBytes hk,?_⟩
  have h := weighed_le hmac lo span hlo as m he [] (by rw [hr]; exact noAttempts_ring)
    List.Pairwise.nil
    (List.forall_mem_nil _) has [] trivial (List.nil_sublist _) (List.forall_mem_nil _)
  rwa [List.length_nil,Nat.zero_add] at h

def thirtyWrong : List Attempt :=
  (List.range 30).map (fun i => ⟨⟨UInt64.ofNat (3600+i), 0, true⟩, []⟩)

theorem guesses_bounded_example :
    (thirtyWrong.zip (addCodes zeroHmac thirtyWrong freshManager).1).countP (weighs 3600 1800) =
        10 ∧
      (thirtyWrong.zip (addCodes zeroHmac thirtyWrong freshManager).1).countP
        (weighs 3600 1800) ≤ 10 := by
  have hbound := (guesses_bounded zeroHmac freshManager thirtyWrong rfl (by decide) rfl
    (by decide +kernel) 3600 1800 (by decide)).2
  have hnone : (thirtyWrong.zip (addCodes zeroHmac thirtyWrong freshManager).1).countP accepts =
      0 := by decide +kernel
  rw [hnone] at hbound
  exact ⟨by decide +kernel,hbound⟩

end EosPayg.Guessing
