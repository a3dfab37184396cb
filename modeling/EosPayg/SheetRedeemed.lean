import EosPayg.BulkCodes
import EosPayg.CodeLedger

/-!
# A sheet of codes and the machine it is for

The table that is written for a device holds a code for each counter and period. On
the machine that has the key of the device, any choice of its cells is credited, in
any order: each cell once, and all of it together.
-/

set_option autoImplicit false

namespace EosPayg.SheetRedeemed
open EosPayg.PaygCodes EosPayg.CodeStrings EosPayg.ProvisioningCsv EosPayg.BulkCodes
  EosPayg.ManagerState EosPayg.ManagerCode EosPayg.TokenLedger EosPayg.CodeLedger

def periodAt (j : ℕ) : EpcPeriod := namedPeriods.getD j .infinite

def pairAt (cell : ℕ × ℕ) : UsedCode := ⟨UInt8.ofNat cell.1, periodAt cell.2⟩

def typed (rows : List Row) (cell : ℕ × ℕ) : List UInt8 :=
  utf8Bytes ((cellAt rows cell.1 cell.2).getD []).tail

def sheetOf (hmac : Hmac) (files : KeyFiles) (id key : Text) : Except ScriptError (List Row) :=
  deviceRows hmac (Function.update files (keyToFilename id) (some (utf8Bytes key)))
    (keyToFilename id)

theorem sheet_verified {hmac : Hmac} {files : KeyFiles} {id key : Text} {rows : List Row}
    (hrows : sheetOf hmac files id key = .ok rows)
    {cell : ℕ × ℕ} (hc : (cellAt rows cell.1 cell.2).isSome) :
    cell.1 < 256 ∧ cell.2 < namedPeriods.length ∧
      verifiedCode hmac (utf8Bytes key) (typed rows cell) = some (pairAt cell) := by
  have hfile : Function.update files (keyToFilename id) (some (utf8Bytes key))
      (keyToFilename id) = some (utf8Bytes key) := Function.update_self _ _ _
  have hk := deviceRows_key hfile hrows
  have hr := deviceRows_eq hmac _ (keyToFilename id) (utf8Bytes key) hfile hk
  obtain rfl := Except.ok.inj (hr.symm.trans hrows)
  obtain ⟨text,ht⟩ := Option.isSome_iff_exists.mp hc
  obtain ⟨hi,p,hp,hcell⟩ := (cellAt_rows hmac (utf8Bytes key) cell.1 cell.2 text).mp ht
  obtain ⟨digits,code,hd,-,-,hparse,hverify⟩ := cellText_codeCell hmac (utf8Bytes key) hk cell.1 p
  have htyped : typed (headers :: (List.range 256).map (fun i =>
      namedPeriods.map (cellText hmac (utf8Bytes key) i))) cell = utf8Bytes digits := by
    rw [typed,ht,← hcell,hd]
    rfl
  have hperiod : periodAt cell.2 = p := by
    rw [periodAt,List.getD_eq_getElem?_getD,hp]
    rfl
  refine ⟨hi,(List.getElem?_eq_some_iff.mp hp).1,?_⟩
  rw [htyped,verifiedCode_some_iff,pairAt,hperiod]
  exact ⟨code,hparse,hverify⟩

theorem pairAt_injective {c d : ℕ × ℕ} (hc : c.1 < 256) (hd : d.1 < 256)
    (hc2 : c.2 < namedPeriods.length) (hd2 : d.2 < namedPeriods.length)
    (h : pairAt c = pairAt d) : c = d := by
  have hn : namedPeriods.Nodup := by decide
  have hcounter : c.1 = d.1 := by
    have := congrArg (fun u => u.counter.toNat) h
    rwa [pairAt,pairAt,UInt8.toNat_ofNat_of_lt' hc,UInt8.toNat_ofNat_of_lt' hd] at this
  have hperiod : namedPeriods[c.2] = namedPeriods[d.2] := by
    have := congrArg UsedCode.period h
    rwa [pairAt,pairAt,periodAt,periodAt,List.getD_eq_getElem?_getD,List.getD_eq_getElem?_getD,
      List.getElem?_eq_getElem hc2,List.getElem?_eq_getElem hd2] at this
  exact Prod.ext hcounter ((List.Nodup.getElem_inj_iff hn).mp hperiod)

theorem noAttempts_free (now : UInt64) (h : rateLimitingTimePeriodSecs < now) :
    attemptsInLastPeriod noAttempts now < rateLimitingNAttempts := by
  have hpos : ¬ (0 : UInt64) ≥ now-rateLimitingTimePeriodSecs := by
    have hlt := UInt64.lt_iff_toNat_lt.mp h
    rw [ge_iff_le,UInt64.le_iff_toNat_le,UInt64.toNat_sub_of_le _ _ (UInt64.le_of_lt h)]
    show ¬ _ ≤ 0
    omega
  have hz : attemptsInLastPeriod noAttempts now = 0 := by
    unfold attemptsInLastPeriod
    rw [List.countP_eq_zero]
    intro t ht
    rw [List.eq_of_mem_replicate ht]
    exact fun hd => hpos (of_decide_eq_true hd)
  rw [hz]
  decide

structure Redeems (hmac : Hmac) (m : EpgManager) (as : List Attempt)
    (pairs : List UsedCode) : Prop where
  verified : as.map (fun a => verifiedCode hmac m.keyBytes a.codeStr) = pairs.map some
  nodup : pairs.Nodup
  unused : ∀ used ∈ pairs, used ∉ m.usedCodes.codes
  source : ∀ a ∈ as, a.clock.sourceNewSeconds = true
  late : ∀ a ∈ as, rateLimitingTimePeriodSecs < a.clock.time
  free : ∀ a ∈ as.head?, attemptsInLastPeriod m.rateLimiting a.clock.time <
    rateLimitingNAttempts

/-- A credited code clears the limiter for the next one. -/
theorem addCodes_redeemed (hmac : Hmac) (as : List Attempt) (pairs : List UsedCode)
    (self : EpgManager) (he : self.enabled = true) (hn : self.cancelled = false)
    (h : Redeems hmac self as pairs) :
    (addCodes hmac as self).1 = pairs.map (fun used => .ok (timeAdded used.period)) ∧
      ledgerOf (addCodes hmac as self).2 =
        credits seconds endOfTime ((as.map (fun a => a.clock.time.toNat)).zip pairs)
          (ledgerOf self) := by
  induction as generalizing pairs self with
  | nil =>
    have hp : pairs = [] := by simpa using h.verified
    subst hp
    exact ⟨rfl,rfl⟩
  | cons a as ih =>
    cases pairs with
    | nil =>
      have := h.verified
      cases this
    | cons used pairs =>
      have hv := h.verified
      rw [List.map_cons,List.map_cons,List.cons.injEq] at hv
      obtain ⟨hnew,hnodup⟩ := List.nodup_cons.mp h.nodup
      obtain ⟨hunused,hrest⟩ := List.forall_mem_cons.mp h.unused
      obtain ⟨hsource,hsources⟩ := List.forall_mem_cons.mp h.source
      have hacc : acceptedCode hmac self a.clock a.codeStr = some used :=
        (acceptedCode_iff hmac self a.clock a.codeStr used).mpr
          ⟨⟨he,hn,h.free a rfl⟩,hv.1,hunused⟩
      have hstate := addCode_accepted_state hmac self a.clock a.codeStr used hacc
      obtain ⟨ke,kn,kk⟩ := addCode_settings hmac self a.clock a.codeStr
      have hnext : Redeems hmac (addCode hmac self a.clock a.codeStr).2.1 as pairs := by
        refine ⟨?_,hnodup,?_,hsources,(List.forall_mem_cons.mp h.late).2,?_⟩
        · rw [kk]
          exact hv.2
        · intro u hu
          rw [mem_addCode,hacc,Option.some.injEq]
          rintro (hm | rfl)
          · exact hrest u hu hm
          · exact hnew hu
        · intro b hb
          rw [hstate]
          exact noAttempts_free b.clock.time
            ((List.forall_mem_cons.mp h.late).2 b (List.mem_of_mem_head? hb))
      obtain ⟨i1,i2⟩ := ih pairs _ (ke.trans he) (kn.trans hn) hnext
      have hok : (addCode hmac self a.clock a.codeStr).1 = .ok (timeAdded used.period) := by
        rw [addCode_accepted hmac self a.clock a.codeStr used hacc]
      refine ⟨congrArg₂ List.cons hok i1,i2.trans ?_⟩
      rw [credited_ledger hmac self a.clock a.codeStr used hsource hacc]
      rfl

/-- Codes that are all credited are spent; and while nothing runs out in between, the
expiry time is in the end what was left, or the time of the first, and all their
periods. -/
theorem redeemed_state (hmac : Hmac) (self : EpgManager) (a : Attempt) (as : List Attempt)
    (pairs : List UsedCode) (he : self.enabled = true) (hn : self.cancelled = false)
    (h : Redeems hmac self (a::as) pairs) :
    (∀ used, used ∈ (addCodes hmac (a::as) self).2.usedCodes.codes ↔
        used ∈ self.usedCodes.codes ∨ used ∈ pairs) ∧
      ((∀ b ∈ as, b.clock.time.toNat ≤ max a.clock.time.toNat self.expiryTimeSecs.toNat) →
        (addCodes hmac (a::as) self).2.expiryTimeSecs.toNat =
          min endOfTime (max a.clock.time.toNat self.expiryTimeSecs.toNat+
            (pairs.map seconds).sum)) := by
  have hlength : (a::as).length = pairs.length := by
    simpa using congrArg List.length h.verified
  obtain ⟨-,hledger⟩ := addCodes_redeemed hmac (a::as) pairs self he hn h
  constructor
  · intro used
    have hspent := congrArg (fun l => used ∈ l.spent) hledger
    rw [credits_spent,List.map_snd_zip (by rw [List.length_map,hlength]),Finset.mem_union,
      List.mem_toFinset] at hspent
    exact List.mem_toFinset.symm.trans
      (hspent.to_iff.trans (or_congr_left List.mem_toFinset))
  · intro hrun
    have htop : max a.clock.time.toNat self.expiryTimeSecs.toNat ≤ endOfTime :=
      max_le (Nat.le_of_lt_succ (UInt64.toNat_lt _)) (Nat.le_of_lt_succ (UInt64.toNat_lt _))
    cases pairs with
    | nil => cases hlength
    | cons used pairs =>
      have hrest : as.length = pairs.length := Nat.succ.inj hlength
      have hfirst : (credit seconds endOfTime (ledgerOf self) a.clock.time.toNat used).expiry =
          min endOfTime (max a.clock.time.toNat self.expiryTimeSecs.toNat+seconds used) := rfl
      have hexpiry : (addCodes hmac (a::as) self).2.expiryTimeSecs.toNat =
          (credits seconds endOfTime ((as.map (fun b => b.clock.time.toNat)).zip pairs)
            (credit seconds endOfTime (ledgerOf self) a.clock.time.toNat used)).expiry :=
        congrArg Ledger.expiry hledger
      have hworth : ((as.map (fun b => b.clock.time.toNat)).zip pairs).map
          (fun e => seconds e.2) = pairs.map seconds := by
        show List.map (seconds ∘ Prod.snd) _ = _
        rw [← List.map_map,List.map_snd_zip (by simp [hrest])]
      rw [hexpiry,credits_expiry]
      · rw [hworth,hfirst,List.map_cons,List.sum_cons]
        omega
      · rw [hfirst]
        exact min_le_left _ _
      · intro e hm
        obtain ⟨b,hb,hbe⟩ := List.mem_map.mp (List.of_mem_zip hm).1
        rw [hfirst,← hbe]
        exact le_min ((hrun b hb).trans htop) ((hrun b hb).trans (Nat.le_add_right _ _))

def letters : Text := List.replicate 64 'A'

def lettersSheet : List Row :=
  headers :: (List.range 256).map (fun i =>
    namedPeriods.map (cellText zeroHmac (utf8Bytes letters) i))

def twoAttempts : List Attempt :=
  [⟨⟨2000, 0, true⟩, typed lettersSheet (7, 1)⟩, ⟨⟨2000, 0, true⟩, typed lettersSheet (3, 0)⟩]

end EosPayg.SheetRedeemed
