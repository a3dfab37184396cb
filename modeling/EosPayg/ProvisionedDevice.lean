import EosPayg.ProvisioningRuns
import EosPayg.SheetRedeemed

/-!
# From the factory to the credit

The table of a provisioned machine has three test codes, and the code generator makes a
sheet of codes from it. The daemon that starts on the machine takes all of them.
-/

set_option autoImplicit false

namespace EosPayg.ProvisionedDevice
open EosPayg.PaygCodes EosPayg.CodeStrings EosPayg.ManagerState EosPayg.ManagerCode
  EosPayg.ManagerFiles EosPayg.CodeLedger EosPayg.FactoryCodes EosPayg.ProvisioningCsv
  EosPayg.ProvisioningRuns EosPayg.BulkCodes EosPayg.SheetRedeemed EosPayg.GuardedRun

inductive Printed where
  | testCode (i : Fin 3)
  | cell (counter column : ℕ)
  deriving DecidableEq

def pairOf : Printed → UsedCode
  | .testCode i => testPair (counterList.getD i 0)
  | .cell counter column => pairAt (counter,column)

/-- The test codes are in the columns after the device id, below the header. -/
def testCodeText (csv : List Row) (i : Fin 3) : Text := (csv.getD 1 []).getD (i+1) []

def typedFor (csv sheet : List Row) : Printed → List UInt8
  | .testCode i => utf8Bytes (testCodeText csv i)
  | .cell counter column => typed sheet (counter,column)

def IsPrinted (sheet : List Row) : Printed → Prop
  | .testCode _ => True
  | .cell counter column => (cellAt sheet counter column).isSome

theorem loadStep_keeps {clock : EpgClock} {files : Directory} {self m : EpgManager}
    {file : StateFile} (h : loadStep clock files self file = some m) : Kept file self m := by
  unfold loadStep at h
  dsimp only at h
  rw [fileLoadCb_seen] at h
  split_ifs at h
  cases h
  exact updateFromFile_keeps self clock file (files file)

structure Fresh (key : List UInt8) (m : EpgManager) : Prop where
  enabled : m.enabled = true
  cancelled : m.cancelled = false
  keyBytes : m.keyBytes = key
  usedCodes : m.usedCodes.codes = []
  rateLimiting : m.rateLimiting = noAttempts

theorem kept_fresh {key : List UInt8} {file : StateFile} {m m' : EpgManager} (h : Fresh key m)
    (hk : Kept file m m') (h1 : file ≠ .usedCodes) (h2 : file ≠ .key) : Fresh key m' :=
  ⟨(hk.enabled h2).trans h.enabled,hk.cancelled.trans h.cancelled,
    (hk.keyBytes h2).trans h.keyBytes,(congrArg UsedCodes.codes (hk.usedCodes h1)).trans
    h.usedCodes,hk.rateLimiting.trans h.rateLimiting⟩

theorem initialise_fresh {clock : EpgClock} {files : Directory} {m : EpgManager}
    {key : List UInt8} (h : initialise clock files = some m) (hk : files .key = some key)
    (hu : files .usedCodes = none) : Fresh key m := by
  obtain ⟨m₁,h₁,h⟩ := run_cons.mp h
  obtain ⟨m₂,h₂,h⟩ := run_cons.mp h
  obtain ⟨m₃,h₃,h⟩ := run_cons.mp h
  obtain ⟨m₄,h₄,h⟩ := run_cons.mp h
  obtain ⟨m₅,h₅,⟨⟩⟩ := run_cons.mp h
  have hcodes : m₁ = { epgManagerInit true with usedCodes := gArraySort [] } := by
    have hl : loadFile (epgManagerInit true) clock .usedCodes (files .usedCodes) =
        (true,{ epgManagerInit true with usedCodes := gArraySort [] },[]) := by
      rw [hu]
      rfl
    rw [loadStep_ok _ _ _ _ _ _ hl rfl,deduceExpiryTime_other _ _ _ (Or.inl rfl)] at h₁
    exact (Option.some.inj h₁).symm
  have hkey : m₂ = { m₁ with keyBytes := key } := by
    have hl : loadFile m₁ clock .key (files .key) = (true,{ m₁ with keyBytes := key },[]) := by
      rw [hk]
      rfl
    rw [loadStep_ok _ _ _ _ _ _ hl rfl,deduceExpiryTime_other _ _ _ (Or.inl (by rw [hcodes]; rfl))]
      at h₂
    exact (Option.some.inj h₂).symm
  have hfresh : Fresh key m₂ := by
    rw [hkey,hcodes]
    exact ⟨rfl,rfl,rfl,(gArraySort_perm []).eq_nil,rfl⟩
  have hthird := kept_fresh hfresh (loadStep_keeps h₃) nofun nofun
  have hfourth := kept_fresh hthird (loadStep_keeps h₄) nofun nofun
  refine kept_fresh hfourth (loadStep_keeps h₅) ?_ ?_ <;> split_ifs <;> exact nofun

theorem testCodeText_provision (data : TestCodeData) (i : Fin 3) :
    testCodeText (provision [data]) i = data.testCodes i := by
  rw [provision_eq]
  fin_cases i <;> rfl

theorem counterList_mem (i : Fin 3) : counterList.getD i 0 ∈ counterList := by
  revert i
  decide

theorem testCode_typed {hmac : Hmac} {key id : Text} (hk : 64 ≤ (utf8Bytes key).length)
    (i : Fin 3) :
    verifiedCode hmac (utf8Bytes key)
        (utf8Bytes (testCodeText (provision [keyGen hmac key id]) i)) =
      some (pairOf (.testCode i)) := by
  have hcode : (keyGen hmac key id).testCodes i =
      finalCode (keyGenValue hmac (utf8Bytes key) (counterList.getD i 0)) := by
    fin_cases i <;> rfl
  rw [testCodeText_provision,hcode]
  exact testCode_verified hmac (utf8Bytes key) hk _ (counterList_mem i)

theorem pairOf_injective {sheet : List Row}
    (hin : ∀ i j, (cellAt sheet i j).isSome → i < 256 ∧ j < namedPeriods.length)
    {p q : Printed} (hp : IsPrinted sheet p) (hq : IsPrinted sheet q) (h : pairOf p = pairOf q) :
    p = q := by
  have hour (i : Fin 3) (cell : ℕ × ℕ) (hc : cell.2 < namedPeriods.length) :
      testPair (counterList.getD i 0) ≠ pairAt cell := by
    intro he
    have hperiod : EpcPeriod.period1Hour = periodAt cell.2 := congrArg UsedCode.period he
    rw [periodAt,List.getD_eq_getElem?_getD,List.getElem?_eq_getElem hc] at hperiod
    have hmem : EpcPeriod.period1Hour ∈ namedPeriods := by
      rw [hperiod]
      exact List.getElem_mem hc
    exact absurd hmem (by decide)
  cases p with
  | testCode i =>
    cases q with
    | testCode j =>
      have hinj : ∀ i j : Fin 3, testPair (counterList.getD i 0) = testPair (counterList.getD j 0) →
          i = j := by decide
      rw [hinj i j h]
    | cell counter column => exact absurd h (hour i _ (hin counter column hq).2)
  | cell counter column =>
    cases q with
    | testCode j => exact absurd h.symm (hour j _ (hin counter column hp).2)
    | cell counter' column' =>
      obtain ⟨h1,h2⟩ := hin counter column hp
      obtain ⟨h1',h2'⟩ := hin counter' column' hq
      have heq : (counter,column) = (counter',column') := pairAt_injective h1 h1' h2 h2' h
      cases heq
      rfl

theorem writeTimeCodes_single (hmac : Hmac) (files : KeyFiles) (id key : Text)
    (hk : 64 ≤ (utf8Bytes key).length) :
    ∃ sheet, sheetOf hmac files id key = .ok sheet ∧
      writeTimeCodes hmac [⟨id, key⟩] files = .ok [(csvFilename id, sheet)] := by
  have hrows : sheetOf hmac files id key = .ok _ := deviceRows_eq hmac _ (keyToFilename id)
    (utf8Bytes key) (Function.update_self _ _ _) hk
  refine ⟨_,hrows,?_⟩
  unfold sheetOf at hrows
  simp only [writeTimeCodes,hrows]
  rfl

/-- Codes that are printed, whichever and in whatever order, are all to be credited. -/
theorem printed_redeems {hmac : Hmac} {files : KeyFiles} {id key : Text} {sheet : List Row}
    (hk : 64 ≤ (utf8Bytes key).length) (hsheet : sheetOf hmac files id key = .ok sheet)
    {m : EpgManager} (hm : Fresh (utf8Bytes key) m) {ps : List Printed} (hd : ps.Nodup)
    (hps : ∀ p ∈ ps, IsPrinted sheet p) {as : List Attempt}
    (has : as.map Attempt.codeStr =
      ps.map (typedFor (provision [keyGen hmac key id]) sheet))
    (hs : ∀ b ∈ as, b.clock.sourceNewSeconds = true ∧ rateLimitingTimePeriodSecs < b.clock.time) :
    Redeems hmac m as (ps.map pairOf) := by
  have hin (i j : ℕ) (hc : (cellAt sheet i j).isSome) : i < 256 ∧ j < namedPeriods.length := by
    have hcell : (cellAt sheet (i,j).1 (i,j).2).isSome := hc
    have h := sheet_verified hsheet hcell
    exact ⟨h.1,h.2.1⟩
  refine ⟨?_,?_,?_,fun b hb => (hs b hb).1,fun b hb => (hs b hb).2,?_⟩
  · have hmap : as.map (fun b => verifiedCode hmac m.keyBytes b.codeStr) =
        (ps.map (typedFor (provision [keyGen hmac key id]) sheet)).map
          (verifiedCode hmac m.keyBytes) := by
      rw [← has,List.map_map]
      rfl
    rw [hmap,List.map_map,List.map_map,hm.keyBytes]
    apply List.map_congr_left
    intro p hp
    cases p with
    | testCode i => exact testCode_typed hk i
    | cell i j =>
      have hcell : (cellAt sheet (i,j).1 (i,j).2).isSome := hps _ hp
      exact (sheet_verified hsheet hcell).2.2
  · exact hd.map_on fun p hp q hq heq => pairOf_injective hin (hps p hp) (hps q hq) heq
  · intro used _
    rw [hm.usedCodes]
    exact List.not_mem_nil
  · intro b hb
    rw [hm.rateLimiting]
    exact noAttempts_free b.clock.time (hs b (List.mem_of_mem_head? hb)).2

end EosPayg.ProvisionedDevice
