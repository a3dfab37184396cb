import EosPayg.PaygCodes

/-!
# Codes are accepted exactly when they were generated

A code packs the period, the counter and thirteen bits of signature into
twenty-six bits without overlap. Verification unpacks the first two fields and
calculates the code anew, so it accepts the codes that can be calculated and no
others, and returns the pair they were calculated from.
-/

set_option autoImplicit false

namespace EosPayg.CodeAcceptance
open EosPayg.PaygCodes

/-- The conditions asserted while a code is calculated, in source order. -/
def calculateAssertions (hmac : Hmac) (period : EpcPeriod) (counter : UInt8)
    (key : List UInt8) : List Bool :=
  let mac := hmac key [UInt8.ofNat period.value, counter]
  [period.value < 1 <<< 5,
    period.value >>> 5 = 0,
    counter.toNat >>> 8 = 0,
    (List.ofFn mac).length = 20,
    signResult mac >>> 13 = 0,
    (epcCodeValidate (codeValue period counter (signResult mac))).isOk]

def signatureOf (mac : Fin 20 → UInt8) : ℕ :=
  (256*(mac (Fin.last 18).castSucc).toNat+(mac (Fin.last 19)).toNat)%2^13

theorem signatureOf_lt (mac : Fin 20 → UInt8) : signatureOf mac < 2^13 :=
  Nat.mod_lt _ (by decide)

theorem signResult_toNat (mac : Fin 20 → UInt8) :
    (signResult mac).toNat = signatureOf mac := by
  have hhi := (mac 18).toNat_lt
  have hlo := (mac 19).toNat_lt
  have hm : signMask.toNat = 2^13-1 := rfl
  have hor : (mac 18).toNat <<< 8 ||| (mac 19).toNat = 256*(mac 18).toNat+(mac 19).toNat := by
    rw [← Nat.shiftLeft_add_eq_or_of_lt hlo,Nat.shiftLeft_eq,Nat.mul_comm]
  unfold signResult signatureOf
  rw [UInt16.toNat_and,UInt16.toNat_or,UInt16.toNat_shiftLeft,hm,Nat.and_two_pow_sub_one_eq_mod]
  simp only [UInt8.toNat_toUInt16]
  have hs : (mac 18).toNat <<< ((8:UInt16).toNat%16)%2^16 = (mac 18).toNat <<< 8 := by
    show (mac 18).toNat <<< 8%2^16 = _
    rw [Nat.shiftLeft_eq]
    omega
  rw [hs,hor]
  rfl

theorem packed (a b c : ℕ) (hb : b < 2^8) (hc : c < 2^13) :
    a <<< 21 ||| b <<< 13 ||| c = 2^21*a+2^13*b+c := by
  have hlow : b <<< 13 < 2^21 := by
    rw [Nat.shiftLeft_eq]
    omega
  have hhigh : a <<< 21 ||| b <<< 13 = (2^8*a+b) <<< 13 := by
    rw [← Nat.shiftLeft_add_eq_or_of_lt hlow,Nat.shiftLeft_eq,Nat.shiftLeft_eq,Nat.shiftLeft_eq]
    ring
  rw [hhigh,← Nat.shiftLeft_add_eq_or_of_lt hc,Nat.shiftLeft_eq]
  ring

theorem codeValue_toNat (period : EpcPeriod) (counter : UInt8) (sign : UInt16)
    (hs : sign.toNat < 2^13) :
    (codeValue period counter sign).toNat =
      2^21*period.value+2^13*counter.toNat+sign.toNat := by
  have hp := period.value_lt
  have hc := counter.toNat_lt
  have hpv : (UInt32.ofNat period.value).toNat = period.value := by
    rw [UInt32.toNat_ofNat']
    omega
  have h1 : (UInt32.ofNat period.value <<< 21).toNat = period.value <<< 21 := by
    rw [UInt32.toNat_shiftLeft,hpv]
    show period.value <<< 21%2^32 = _
    rw [Nat.shiftLeft_eq]
    omega
  have h2 : (counter.toUInt32 <<< 13).toNat = counter.toNat <<< 13 := by
    rw [UInt32.toNat_shiftLeft,UInt8.toNat_toUInt32]
    show counter.toNat <<< 13%2^32 = _
    rw [Nat.shiftLeft_eq]
    omega
  unfold codeValue
  rw [UInt32.toNat_or,UInt32.toNat_or,h1,h2,UInt16.toNat_toUInt32]
  exact packed _ _ _ hc hs

theorem period_field (code : UInt32) :
    ((code >>> 21) &&& periodMask).toNat = code.toNat/2^21%2^5 := by
  have hm : periodMask.toNat = 2^5-1 := rfl
  rw [UInt32.toNat_and,hm,Nat.and_two_pow_sub_one_eq_mod,UInt32.toNat_shiftRight,
    Nat.shiftRight_eq_div_pow]
  rfl

theorem counter_field (code : UInt32) :
    ((code >>> 13) &&& counterMask).toUInt8.toNat = code.toNat/2^13%2^8 := by
  have hm : counterMask.toNat = 2^8-1 := rfl
  rw [UInt32.toNat_toUInt8,UInt32.toNat_and,hm,Nat.and_two_pow_sub_one_eq_mod,
    UInt32.toNat_shiftRight,Nat.shiftRight_eq_div_pow]
  show code.toNat/2^13%2^8%2^8 = _
  exact Nat.mod_mod _ _

theorem epcCodeValidate_of_lt (code : UInt32) (h : code.toNat < 2^26) :
    epcCodeValidate code = .ok () := by
  have := epcCodeValidate_ofNat code.toNat h
  rwa [UInt32.ofNat_toNat] at this

theorem validateKey_ok (key : List UInt8) (hk : 64 ≤ key.length) : validateKey key = .ok () := by
  rw [validateKey,if_neg (by simpa [keyLengthBytesMinimum] using hk)]

theorem validateKey_short (key : List UInt8) (hk : key.length < 64) :
    ∃ e, validateKey key = .error e ∧ e.code = .invalidKey := by
  have hm : keyLengthBytesMinimum = 64 := rfl
  rw [validateKey,if_pos (by omega)]
  exact ⟨_,rfl,rfl⟩

def generated (hmac : Hmac) (period : EpcPeriod) (counter : UInt8) (key : List UInt8) : UInt32 :=
  codeValue period counter (signResult (hmac key [UInt8.ofNat period.value, counter]))

theorem epcCalculateCode_eq (hmac : Hmac) (period : EpcPeriod) (counter : UInt8)
    (key : List UInt8) (hk : 64 ≤ key.length) :
    epcCalculateCode hmac period.value counter key = .ok (generated hmac period counter key) := by
  rw [epcCalculateCode,epcPeriodValidate_value,validateKey_ok key hk]
  rfl

theorem generated_toNat (hmac : Hmac) (period : EpcPeriod) (counter : UInt8)
    (key : List UInt8) :
    (generated hmac period counter key).toNat = 2^21*period.value+2^13*counter.toNat+
      signatureOf (hmac key [UInt8.ofNat period.value, counter]) := by
  have hs := signResult_toNat (hmac key [UInt8.ofNat period.value, counter])
  have hlt := signatureOf_lt (hmac key [UInt8.ofNat period.value, counter])
  rw [generated,codeValue_toNat _ _ _ (by omega),hs]

theorem generated_lt (hmac : Hmac) (period : EpcPeriod) (counter : UInt8) (key : List UInt8) :
    (generated hmac period counter key).toNat < 2^26 := by
  have hp := period.value_lt
  have hc := counter.toNat_lt
  have hs := signatureOf_lt (hmac key [UInt8.ofNat period.value, counter])
  have hg := generated_toNat hmac period counter key
  omega

theorem generated_fields (hmac : Hmac) (period : EpcPeriod) (counter : UInt8)
    (key : List UInt8) :
    (generated hmac period counter key).toNat/2^21%2^5 = period.value ∧
      (generated hmac period counter key).toNat/2^13%2^8 = counter.toNat := by
  have hp := period.value_lt
  have hc := counter.toNat_lt
  have hs := signatureOf_lt (hmac key [UInt8.ofNat period.value, counter])
  have hg := generated_toNat hmac period counter key
  constructor <;> omega

theorem generated_injective (hmac : Hmac) (p q : EpcPeriod) (c d : UInt8) (key : List UInt8)
    (h : generated hmac p c key = generated hmac q d key) : p = q ∧ c = d := by
  have hp := generated_fields hmac p c key
  have hq := generated_fields hmac q d key
  rw [h] at hp
  constructor
  · exact EpcPeriod.value_injective (hp.1.symm.trans hq.1)
  · exact UInt8.toNat_inj.mp (hp.2.symm.trans hq.2)

theorem calculateAssertions_hold (hmac : Hmac) (period : EpcPeriod) (counter : UInt8)
    (key : List UInt8) : (calculateAssertions hmac period counter key).all id = true := by
  have hp := period.value_lt
  have hc := counter.toNat_lt
  have hs := signResult_toNat (hmac key [UInt8.ofNat period.value, counter])
  have hlt := signatureOf_lt (hmac key [UInt8.ofNat period.value, counter])
  have hv := epcCodeValidate_of_lt _ (generated_lt hmac period counter key)
  have hsign : signResult (hmac key [UInt8.ofNat period.value, counter]) >>> 13 = 0 := by
    apply UInt16.toNat_inj.mp
    rw [UInt16.toNat_shiftRight,hs]
    show signatureOf _ >>> 13 = 0
    rw [Nat.shiftRight_eq_div_pow]
    exact Nat.div_eq_of_lt hlt
  have hperiod : period.value >>> 5 = 0 := by
    rw [Nat.shiftRight_eq_div_pow]
    omega
  have hcounter : counter.toNat >>> 8 = 0 := by
    rw [Nat.shiftRight_eq_div_pow]
    omega
  rw [generated] at hv
  simp [calculateAssertions,hp,hperiod,hcounter,hsign,hv,Except.isOk,Except.toBool]

/-- Verification succeeds with a pair exactly when the code is the one that is
generated from that pair. -/
theorem epcVerifyCode_ok_iff (hmac : Hmac) (code : UInt32) (key : List UInt8)
    (hk : 64 ≤ key.length) (period : EpcPeriod) (counter : UInt8) :
    epcVerifyCode hmac code key = .ok (period,counter) ↔
      code = generated hmac period counter key := by
  constructor
  · intro h
    unfold epcVerifyCode at h
    cases hc : epcCodeValidate code with
    | error e =>
      rw [hc] at h
      cases h
    | ok u =>
      cases hp : epcPeriodValidate ((code >>> 21) &&& periodMask).toNat with
      | error e =>
        simp only [hc,validateKey_ok key hk,hp,bind,Except.bind] at h
        cases h
      | ok p =>
        have hcalc := epcCalculateCode_eq hmac p ((code >>> 13) &&& counterMask).toUInt8 key hk
        rw [epcPeriodValidate_ok hp] at hcalc
        simp only [hc,validateKey_ok key hk,hp,hcalc,bind,Except.bind] at h
        split_ifs at h with hg
        cases h
        exact hg.symm
  · rintro rfl
    have hf := generated_fields hmac period counter key
    have hc : ((generated hmac period counter key >>> 13) &&& counterMask).toUInt8 = counter := by
      apply UInt8.toNat_inj.mp
      rw [counter_field,hf.2]
    unfold epcVerifyCode
    rw [epcCodeValidate_of_lt _ (generated_lt hmac period counter key),validateKey_ok key hk]
    simp only [period_field,hf.1,hc,epcPeriodValidate_value,
      epcCalculateCode_eq hmac period counter key hk,bind,Except.bind,if_true]
    rfl

theorem epcCalculateCode_short (hmac : Hmac) (period : ℕ) (counter : UInt8) (key : List UInt8)
    (hk : key.length < 64) : ∃ e, epcCalculateCode hmac period counter key = .error e ∧
      (∀ p : EpcPeriod, period = p.value → e.code = .invalidKey) := by
  rcases validateKey_short key hk with ⟨e,he,hcode⟩
  cases hp : epcPeriodValidate period with
  | ok p =>
    refine ⟨e,?_,fun _ _ => hcode⟩
    rw [epcCalculateCode,hp]
    simp only [he,bind,Except.bind]
  | error d =>
    refine ⟨d,?_,?_⟩
    · rw [epcCalculateCode,hp]
      rfl
    · rintro p rfl
      rw [epcPeriodValidate_value] at hp
      cases hp

theorem epcVerifyCode_short (hmac : Hmac) (code : UInt32) (key : List UInt8)
    (hk : key.length < 64) : ∃ e, epcVerifyCode hmac code key = .error e ∧
      (code.toNat < 2^26 → e.code = .invalidKey) := by
  rcases validateKey_short key hk with ⟨e,he,hcode⟩
  cases hv : epcCodeValidate code with
  | ok u =>
    refine ⟨e,?_,fun _ => hcode⟩
    rw [epcVerifyCode,hv]
    simp only [he,bind,Except.bind]
  | error d =>
    refine ⟨d,?_,?_⟩
    · rw [epcVerifyCode,hv]
      rfl
    · intro hlt
      rw [epcCodeValidate_of_lt code hlt] at hv
      cases hv

/-- For every message code, key and code: with a key of at least 64 bytes,
verification succeeds exactly on the calculated codes, with the one pair each
is calculated from, and every calculation gives the packed fields below `2^26`
with no assertion failing. A shorter key is refused by both functions. -/
theorem accepted_iff_generated (hmac : Hmac) (key : List UInt8) :
    (64 ≤ key.length →
      (∀ code : UInt32,
        ((∃ out, epcVerifyCode hmac code key = .ok out) ↔
          ∃ (p : EpcPeriod) (c : UInt8), epcCalculateCode hmac p.value c key = .ok code) ∧
        ∀ (p : EpcPeriod) (c : UInt8), epcCalculateCode hmac p.value c key = .ok code →
          epcVerifyCode hmac code key = .ok (p,c) ∧
          ∀ (q : EpcPeriod) (d : UInt8), epcCalculateCode hmac q.value d key = .ok code →
            q = p ∧ d = c) ∧
      ∀ (p : EpcPeriod) (c : UInt8), ∃ code, epcCalculateCode hmac p.value c key = .ok code ∧
        code.toNat = p.value <<< 21 ||| c.toNat <<< 13 |||
          signatureOf (hmac key [UInt8.ofNat p.value, c]) ∧
        code.toNat < 2^26 ∧ code.toNat < 10^8 ∧
        (calculateAssertions hmac p c key).all id = true) ∧
    (key.length < 64 →
      (∀ (p : EpcPeriod) (c : UInt8), ∃ e,
        epcCalculateCode hmac p.value c key = .error e ∧ e.code = .invalidKey) ∧
      ∀ code : UInt32, ∃ e, epcVerifyCode hmac code key = .error e) := by
  constructor
  · intro hk
    have hcalc : ∀ (p : EpcPeriod) (c : UInt8) (code : UInt32),
        epcCalculateCode hmac p.value c key = .ok code ↔ code = generated hmac p c key := by
      intro p c code
      rw [epcCalculateCode_eq hmac p c key hk,Except.ok.injEq,eq_comm]
    constructor
    · intro code
      constructor
      · constructor
        · rintro ⟨⟨p,c⟩,hv⟩
          exact ⟨p,c,(hcalc p c code).mpr ((epcVerifyCode_ok_iff hmac code key hk p c).mp hv)⟩
        · rintro ⟨p,c,hg⟩
          exact ⟨(p,c),(epcVerifyCode_ok_iff hmac code key hk p c).mpr ((hcalc p c code).mp hg)⟩
      · intro p c hg
        rw [hcalc] at hg
        constructor
        · exact (epcVerifyCode_ok_iff hmac code key hk p c).mpr hg
        · intro q d hd
          rw [hcalc] at hd
          exact generated_injective hmac q p d c key (hd.symm.trans hg)
    · intro p c
      have hlt := generated_lt hmac p c key
      refine ⟨_,(hcalc p c _).mpr rfl,?_,hlt,by omega,calculateAssertions_hold hmac p c key⟩
      rw [packed _ _ _ c.toNat_lt (signatureOf_lt _)]
      exact generated_toNat hmac p c key
  · intro hk
    constructor
    · intro p c
      rcases epcCalculateCode_short hmac p.value c key hk with ⟨e,he,hcode⟩
      exact ⟨e,he,hcode p rfl⟩
    · intro code
      rcases epcVerifyCode_short hmac code key hk with ⟨e,he,-⟩
      exact ⟨e,he⟩

def countingHmac : Hmac := fun _ _ i => UInt8.ofNat i.val

/-- A day's code with counter seven. -/
theorem accepted_iff_generated_example :
    epcVerifyCode countingHmac 8450579 (List.replicate 64 0) = .ok (.period1Day,7) :=
  ((((accepted_iff_generated countingHmac (List.replicate 64 0)).1 (by decide)).1 8450579).2
    .period1Day 7 (by decide)).1

end EosPayg.CodeAcceptance
