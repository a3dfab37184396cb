import EosPayg.CodeStrings
import EosPayg.CodeLedger
import EosPayg.ProvisioningCsv

/-!
# The test codes of the factory

While a device is provisioned a script computes three codes of an hour for its
key, without the library: it packs and signs in unbounded integers and pads the
usual numeral with one zero if it is short. These are the strings the library
formats for the same counters, so a device accepts each of the three once.
-/

set_option autoImplicit false

namespace EosPayg.FactoryCodes
open EosPayg.PaygCodes EosPayg.CodeAcceptance EosPayg.CodeStrings EosPayg.ManagerState
  EosPayg.ManagerCode EosPayg.CodeLedger EosPayg.ProvisioningCsv

def signWidthBits : ℕ := 13

def counterWidthBits : ℕ := 8

def period : ℕ := 3

def counterList : List ℕ := [250, 249, 248]

def packB (n : ℕ) : List UInt8 := [UInt8.ofNat n]

def keyGenValue (hmac : Hmac) (keyBytes : List UInt8) (count : ℕ) : ℕ :=
  let hmacData := List.ofFn (hmac keyBytes (packB period ++ packB count))
  let signMask := (1 <<< signWidthBits)-1
  let signResult := ((hmacData.getD 18 0).toNat <<< 8 ||| (hmacData.getD 19 0).toNat) &&& signMask
  (period <<< (counterWidthBits+signWidthBits)) ||| (count <<< signWidthBits) ||| signResult

def finalCode (codeValue : ℕ) : Text :=
  if (Nat.repr codeValue).toList.length < 8 then '0'::(Nat.repr codeValue).toList
  else (Nat.repr codeValue).toList

def testCodeList (hmac : Hmac) (key : Text) : List Text :=
  counterList.map (fun count => finalCode (keyGenValue hmac (utf8Bytes key) count))

def keyGen (hmac : Hmac) (key deviceId : Text) : TestCodeData where
  deviceId := deviceId
  testCodes := fun i => (testCodeList hmac key).getD i.val []
  key := key

/-- The number the script packs is the code the library calculates. -/
theorem keyGenValue_eq (hmac : Hmac) (keyBytes : List UInt8) (count : UInt8) :
    keyGenValue hmac keyBytes count.toNat =
      (generated hmac .period1Hour count keyBytes).toNat := by
  have hmsg : packB period ++ packB count.toNat =
      [UInt8.ofNat EpcPeriod.period1Hour.value, count] := by
    rw [packB,packB,UInt8.ofNat_toNat]
    rfl
  have hsign : ∀ mac : Fin 20 → UInt8,
      ((((List.ofFn mac).getD 18 0).toNat <<< 8 ||| ((List.ofFn mac).getD 19 0).toNat) &&&
        (1 <<< signWidthBits)-1) = signatureOf mac := by
    intro mac
    have hlo := (mac 19).toNat_lt
    have h18 : (List.ofFn mac).getD 18 0 = mac 18 := by simp
    have h19 : (List.ofFn mac).getD 19 0 = mac 19 := by simp
    have hmask : (1 <<< signWidthBits)-1 = 2^13-1 := rfl
    rw [h18,h19,hmask,Nat.and_two_pow_sub_one_eq_mod,← Nat.shiftLeft_add_eq_or_of_lt hlo,
      Nat.shiftLeft_eq,Nat.mul_comm]
    rfl
  unfold keyGenValue
  simp only [hmsg,hsign,generated_toNat]
  exact packed 3 _ _ count.toNat_lt (signatureOf_lt _)

/-- A code of an hour has seven digits, so one zero makes eight. -/
theorem finalCode_eq (hmac : Hmac) (keyBytes : List UInt8) (count : UInt8)
    (hc : 200 ≤ count.toNat) :
    finalCode (keyGenValue hmac keyBytes count.toNat) =
      digitText 8 (generated hmac .period1Hour count keyBytes).toNat := by
  have hg := generated_toNat hmac .period1Hour count keyBytes
  have hv : EpcPeriod.period1Hour.value = 3 := rfl
  have hlt := count.toNat_lt
  have hs := signatureOf_lt (hmac keyBytes [UInt8.ofNat EpcPeriod.period1Hour.value, count])
  rw [keyGenValue_eq]
  generalize (generated hmac .period1Hour count keyBytes).toNat = n at hg ⊢
  have hle : (Nat.toDigits 10 n).length ≤ 7 :=
    (Nat.length_toDigits_le_iff (by decide) (by decide)).mpr (by omega)
  have hge : ¬(Nat.toDigits 10 n).length ≤ 6 := by
    rw [Nat.length_toDigits_le_iff (by decide) (by decide)]
    omega
  have hlen : (Nat.toDigits 10 n).length = 7 := by omega
  rw [digitText_toDigits 8 n (by decide) (by omega),finalCode,Nat.toList_repr,hlen,
    if_pos (by decide)]
  rfl

theorem counterList_bytes : ∀ count ∈ counterList, 200 ≤ count ∧ count < 256 := by decide

theorem counterList_toNat (count : ℕ) (h : count ∈ counterList) :
    (UInt8.ofNat count).toNat = count := by
  have hb := counterList_bytes count h
  rw [UInt8.toNat_ofNat']
  omega

theorem finalCode_counter (hmac : Hmac) (keyBytes : List UInt8) (count : ℕ)
    (h : count ∈ counterList) :
    finalCode (keyGenValue hmac keyBytes count) =
      digitText 8 (generated hmac .period1Hour (UInt8.ofNat count) keyBytes).toNat := by
  have hb := counterList_bytes count h
  have hc := counterList_toNat count h
  rw [← finalCode_eq hmac keyBytes _ (by omega),hc]

theorem testCode_accepted (hmac : Hmac) (key : List UInt8) (hk : 64 ≤ key.length) (c : UInt8) :
    let code := generated hmac .period1Hour c key
    epcCalculateCode hmac EpcPeriod.period1Hour.value c key = .ok code ∧
      epcFormatCodeChecked code = some (utf8Bytes (digitText 8 code.toNat)) ∧
      epcParseCode (utf8Bytes (digitText 8 code.toNat)) = .ok code ∧
      epcVerifyCode hmac code key = .ok (.period1Hour,c) := by
  intro code
  have hlt : code.toNat < 2^26 := generated_lt hmac .period1Hour c key
  rw [utf8Bytes_digitText]
  exact ⟨epcCalculateCode_eq hmac .period1Hour c key hk,epcFormatCodeChecked_eq code hlt,
    format_parse code hlt,(epcVerifyCode_ok_iff hmac code key hk .period1Hour c).mpr rfl⟩

/-- Strings which stand for different unused pairs are all credited, whatever is
entered before them, except where the limiter refuses. -/
theorem unused_codes_credited (hmac : Hmac) (as : List Attempt) (self : EpgManager)
    (period : EpcPeriod) (he : self.enabled = true) (hn : self.cancelled = false)
    (hu : ∀ a ∈ as, ∃ used, verifiedCode hmac self.keyBytes a.codeStr = some used ∧
      used.period = period ∧ used ∉ self.usedCodes.codes)
    (hd : (as.map (fun a => verifiedCode hmac self.keyBytes a.codeStr)).Nodup) :
    ∀ r ∈ (addCodes hmac as self).1,
      r = .ok (timeAdded period) ∨ r = .error tooManyAttemptsError := by
  induction as generalizing self with
  | nil => exact List.forall_mem_nil _
  | cons a as ih =>
    obtain ⟨used,hv,hp,hunused⟩ := hu a (by simp)
    obtain ⟨ke,kn,kk⟩ := addCode_settings hmac self a.clock a.codeStr
    rw [List.map_cons,List.nodup_cons] at hd
    have hrest : ∀ b ∈ as, ∃ used, verifiedCode hmac self.keyBytes b.codeStr = some used ∧
        used.period = period ∧
        used ∉ (addCode hmac self a.clock a.codeStr).2.1.usedCodes.codes := by
      intro b hb
      obtain ⟨other,hv',hp',hunused'⟩ := hu b (by simp [hb])
      refine ⟨other,hv',hp',?_⟩
      cases h : acceptedCode hmac self a.clock a.codeStr with
      | none =>
        rw [(addCode_refused hmac self a.clock a.codeStr h).2,if_pos he]
        exact hunused'
      | some u =>
        have huv := ((acceptedCode_iff hmac self a.clock a.codeStr u).mp h).2.1
        rw [addCode_accepted_state hmac self a.clock a.codeStr u h]
        rw [mem_gArraySort,List.mem_append,List.mem_singleton]
        rintro (hm | rfl)
        · exact hunused' hm
        · apply hd.1
          rw [huv,← hv']
          exact List.mem_map_of_mem hb
    rw [addCodes,List.forall_mem_cons]
    constructor
    · by_cases hl : attemptsInLastPeriod self.rateLimiting a.clock.time < rateLimitingNAttempts
      · have h := (acceptedCode_iff hmac self a.clock a.codeStr used).mpr
          ⟨⟨he,hn,hl⟩,hv,hunused⟩
        rw [addCode_accepted hmac self a.clock a.codeStr used h,hp]
        exact Or.inl rfl
      · exact Or.inr ((addCode_limited_iff hmac self a.clock a.codeStr he).mpr
          (Nat.not_lt.mp hl))
    · rw [← kk] at hrest hd
      exact ih _ (ke.trans he) (kn.trans hn) hrest hd.2

def testPair (count : ℕ) : UsedCode := ⟨UInt8.ofNat count, .period1Hour⟩

theorem testCode_verified (hmac : Hmac) (key : List UInt8) (hk : 64 ≤ key.length) (count : ℕ)
    (h : count ∈ counterList) :
    verifiedCode hmac key (utf8Bytes (finalCode (keyGenValue hmac key count))) =
      some (testPair count) := by
  obtain ⟨-,-,hparse,hverify⟩ := testCode_accepted hmac key hk (UInt8.ofNat count)
  rw [finalCode_counter hmac key count h]
  exact (verifiedCode_some_iff hmac key _ _).mpr ⟨_,hparse,hverify⟩

theorem testCodeList_verified (hmac : Hmac) (key : Text) (hk : 64 ≤ (utf8Bytes key).length) :
    (testCodeList hmac key).map (verifiedCode hmac (utf8Bytes key) ∘ utf8Bytes) =
      counterList.map (fun count => some (testPair count)) := by
  rw [testCodeList,List.map_map]
  apply List.map_congr_left
  intro count h
  rw [Function.comp_apply,Function.comp_apply]
  exact testCode_verified hmac (utf8Bytes key) hk count h

/-- Each of the three codes is what the library calculates for an hour, the key
and a counter of its own, formatted by the library, and it parses and verifies.
Entered in any order on a machine with that key, where none of them was used,
each is credited unless the rate limiter refuses it. -/
theorem key_gen_agrees (hmac : Hmac) (key deviceId : Text)
    (hk : 64 ≤ (utf8Bytes key).length) :
    counterList.Nodup ∧
    (∀ i : Fin 3, ∃ (c : UInt8) (code : UInt32), counterList[i.val]? = some c.toNat ∧
      epcCalculateCode hmac EpcPeriod.period1Hour.value c (utf8Bytes key) = .ok code ∧
      epcFormatCodeChecked code =
        some (utf8Bytes ((keyGen hmac key deviceId).testCodes i)) ∧
      epcParseCode (utf8Bytes ((keyGen hmac key deviceId).testCodes i)) = .ok code ∧
      epcVerifyCode hmac code (utf8Bytes key) = .ok (.period1Hour,c)) ∧
    ∀ (self : EpgManager) (as : List Attempt), self.enabled = true → self.cancelled = false →
      self.keyBytes = utf8Bytes key →
      (∀ count ∈ counterList, testPair count ∉ self.usedCodes.codes) →
      (as.map Attempt.codeStr).Perm ((testCodeList hmac key).map utf8Bytes) →
      ∀ r ∈ (addCodes hmac as self).1,
        r = .ok (timeAdded .period1Hour) ∨ r = .error tooManyAttemptsError := by
  refine ⟨by decide,?_,?_⟩
  · intro i
    have hi : i.val < counterList.length := i.isLt
    have hmem : counterList[i.val] ∈ counterList := List.getElem_mem hi
    have hcode : (keyGen hmac key deviceId).testCodes i =
        finalCode (keyGenValue hmac (utf8Bytes key) counterList[i.val]) := by
      show (testCodeList hmac key).getD i.val [] = _
      rw [testCodeList,List.getD_eq_getElem?_getD,List.getElem?_map,
        List.getElem?_eq_getElem hi]
      rfl
    rw [hcode,finalCode_counter hmac _ _ hmem]
    refine ⟨_,_,?_,testCode_accepted hmac (utf8Bytes key) hk (UInt8.ofNat counterList[i.val])⟩
    rw [counterList_toNat _ hmem,List.getElem?_eq_getElem hi]
  · intro self as he hn hkey hunused hperm
    have hall : (as.map (fun a => verifiedCode hmac self.keyBytes a.codeStr)).Perm
        (counterList.map (fun count => some (testPair count))) := by
      have h := hperm.map (verifiedCode hmac self.keyBytes)
      rwa [List.map_map,List.map_map,hkey,testCodeList_verified hmac key hk,← hkey] at h
    apply unused_codes_credited hmac as self .period1Hour he hn
    · intro a ha
      have hm := hall.mem_iff.mp
        (List.mem_map_of_mem (f := fun a => verifiedCode hmac self.keyBytes a.codeStr) ha)
      rcases List.mem_map.mp hm with ⟨count,hcount,hv⟩
      exact ⟨testPair count,hv.symm,rfl,hunused count hcount⟩
    · exact hall.nodup_iff.mpr (by decide)

def letters : Text := List.replicate 64 'A'

def lettersManager : EpgManager := { epgManagerInit true with keyBytes := utf8Bytes letters }

def lettersAttempts : List Attempt :=
  ((testCodeList countingHmac letters).map utf8Bytes).reverse.map fun codeStr =>
    ⟨⟨2000, 0, true⟩, codeStr⟩

theorem key_gen_agrees_letters :
    counterList.Nodup ∧
      (∃ (c : UInt8) (code : UInt32), counterList[0]? = some c.toNat ∧
        epcParseCode (utf8Bytes ((keyGen countingHmac letters []).testCodes 0)) = .ok code ∧
        epcVerifyCode countingHmac code (utf8Bytes letters) = .ok (.period1Hour,c)) ∧
      (addCodes countingHmac lettersAttempts lettersManager).1.length = 3 ∧
      ∀ r ∈ (addCodes countingHmac lettersAttempts lettersManager).1,
        r = .ok (timeAdded .period1Hour) ∨ r = .error tooManyAttemptsError := by
  obtain ⟨hnodup,hcodes,hcredited⟩ := key_gen_agrees countingHmac letters [] (by decide)
  obtain ⟨c,code,hc,-,-,hparsed,hverified⟩ := hcodes 0
  have hperm : (lettersAttempts.map Attempt.codeStr).Perm
      ((testCodeList countingHmac letters).map utf8Bytes) := by
    rw [lettersAttempts,List.map_map]
    exact (List.map_id _).symm ▸ List.reverse_perm _
  exact ⟨hnodup,⟨c,code,hc,hparsed,hverified⟩,by decide +kernel,
    hcredited lettersManager lettersAttempts rfl rfl rfl (by decide +kernel) hperm⟩

end EosPayg.FactoryCodes
