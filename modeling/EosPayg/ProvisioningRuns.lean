import EosPayg.FactoryCodes
import EosPayg.ManagerFiles

/-!
# What the factory leaves on its stick and on the machines

A run of the script makes a key for a machine, installs it, and adds the test codes to
two tables in the machine's folder on the stick. Machines are provisioned in any order,
and any number of times. The last key of a machine is the one in its tables.
-/

set_option autoImplicit false

namespace EosPayg.ProvisioningRuns
open EosPayg.PaygCodes EosPayg.CodeStrings EosPayg.ManagerState EosPayg.ManagerCode
  EosPayg.ManagerFiles EosPayg.FactoryCodes EosPayg.ProvisioningCsv

/-- Text that has no break in it is filled into lines: what is left of the line is
counted down. -/
def fill (width : ℕ) : ℕ → Text → Text
  | _, [] => []
  | 0, c::rest => '\n' :: c :: fill width (width-1) rest
  | left+1, c::rest => c::fill width left rest

def universalNewlines : Text → Text
  | [] => []
  | '\r' :: '\n' :: rest => '\n' :: universalNewlines rest
  | c::rest => (if c = '\r' then '\n' else c) :: universalNewlines rest

/-- The characters that were chosen at random, in lines. -/
def passwordGenerator (choices : Text) : Text := fill 70 70 choices

def passwordSize : ℕ := 768

structure Chosen (choices : Text) : Prop where
  size : choices.length = passwordSize
  chars : ∀ c ∈ choices, c.isAlphanum = true

theorem fill_mem (width left : ℕ) (t : Text) (c : Char) (h : c ∈ fill width left t) :
    c ∈ t ∨ c = '\n' := by
  induction t generalizing left with
  | nil => exact Or.inl h
  | cons d rest ih =>
    cases left with
    | zero =>
      rcases List.mem_cons.mp h with rfl | h
      · exact Or.inr rfl
      · rcases List.mem_cons.mp h with rfl | h
        · exact Or.inl List.mem_cons_self
        · exact (ih _ h).imp_left (List.mem_cons_of_mem d)
    | succ left =>
      rcases List.mem_cons.mp h with rfl | h
      · exact Or.inl List.mem_cons_self
      · exact (ih _ h).imp_left (List.mem_cons_of_mem d)

theorem fill_countP (width left : ℕ) (t : Text) :
    (fill width left t).countP Char.isAlphanum = t.countP Char.isAlphanum := by
  induction t generalizing left with
  | nil => cases left <;> rfl
  | cons c rest ih =>
    have hnewline : ('\n' : Char).isAlphanum = false := by decide
    cases left with
    | zero => rw [fill,List.countP_cons,List.countP_cons,List.countP_cons,ih,hnewline]; rfl
    | succ left => rw [fill,List.countP_cons,List.countP_cons,ih]

theorem universalNewlines_id (t : Text) (h : '\r' ∉ t) : universalNewlines t = t := by
  induction t using universalNewlines.induct with
  | case1 => rfl
  | case2 rest ih => exact absurd List.mem_cons_self h
  | case3 c rest hne ih =>
    have hc : c ≠ '\r' := fun he => h (he ▸ List.mem_cons_self)
    rw [universalNewlines,if_neg hc,ih (fun hr => h (List.mem_cons_of_mem c hr))]
    exact hne

theorem password_mem {choices : Text} (h : Chosen choices) (c : Char)
    (hc : c ∈ passwordGenerator choices) : c.isAlphanum = true ∨ c = '\n' :=
  (fill_mem 70 70 choices c hc).imp_left (h.chars c)

theorem password_countP {choices : Text} (h : Chosen choices) :
    (passwordGenerator choices).countP Char.isAlphanum = passwordSize := by
  rw [passwordGenerator,fill_countP,List.countP_eq_length.mpr h.chars,h.size]

/-- A key is read back as it was written. -/
theorem password_read {choices : Text} (h : Chosen choices) :
    universalNewlines (passwordGenerator choices) = passwordGenerator choices := by
  apply universalNewlines_id
  intro hr
  rcases password_mem h _ hr with hr | hr
  · exact absurd hr (by decide)
  · exact absurd hr (by decide)

theorem password_bytes {choices : Text} (h : Chosen choices) :
    64 ≤ (utf8Bytes (passwordGenerator choices)).length := by
  have hone (c : Char) : 1 ≤ (String.utf8EncodeChar c).length := by
    rw [String.length_utf8EncodeChar]
    exact c.utf8Size_pos
  have hlength (t : Text) : t.length ≤ (utf8Bytes t).length := by
    induction t with
    | nil => exact le_rfl
    | cons c t ih =>
      have hc := hone c
      rw [utf8Bytes,List.flatMap_cons,List.length_append,List.length_cons]
      rw [utf8Bytes] at ih
      omega
  have hcount : 768 ≤ (passwordGenerator choices).length :=
    (password_countP h).symm.le.trans List.countP_le_length
  exact le_trans (by decide) (hcount.trans (hlength _))

structure Machine where
  machineId : Text
  accountId : Option Text
  keyFile : Option Text
  backupKey : Option Text
  state : Directory

structure Folder where
  generatedKey : Option Text
  csv : List Row
  json : List TestCodeData

structure Factory where
  machine : ℕ → Machine
  folder : Text → Folder

structure Run where
  serial : ℕ
  stick : Bool
  choices : Text

def deviceId (m : Machine) : Text := (m.machineId.take 8).map Char.toUpper

def readMachineId (m : Machine) : Machine := { m with accountId := some (deviceId m) }

def backupFile (m : Machine) : Machine :=
  match m.keyFile with
  | some key => { m with backupKey := some (universalNewlines key) }
  | none => m

def addKey (m : Machine) (folder : Folder) : Machine :=
  match folder.generatedKey with
  | some key => { m with keyFile := some (universalNewlines key) }
  | none => m

def removeUsedCodes (m : Machine) : Machine :=
  { m with state := Function.update m.state .usedCodes none }

def writeToJson (json : List TestCodeData) (data : TestCodeData) : List TestCodeData :=
  json++[data]

def generateCodes (hmac : Hmac) (key deviceId : Text) (folder : Folder) : Folder :=
  let data := keyGen hmac key deviceId
  { folder with
    csv := writeToCsv folder.csv data
    json := writeToJson folder.json data }

def runKeyInstall (hmac : Hmac) (choices deviceId : Text) (m : Machine) (folder : Folder) :
    Machine × Folder :=
  let key := passwordGenerator choices
  let folder := { folder with generatedKey := some key }
  (removeUsedCodes (addKey (backupFile m) folder), generateCodes hmac key deviceId folder)

/-- Without a stick there is nowhere to write the key, and the script fails. -/
def codeGen (hmac : Hmac) (f : Factory) (r : Run) : Factory :=
  let m := readMachineId (f.machine r.serial)
  if r.stick then
    let installed := runKeyInstall hmac r.choices (deviceId m) m (f.folder (deviceId m))
    { machine := Function.update f.machine r.serial installed.1
      folder := Function.update f.folder (deviceId m) installed.2 }
  else { f with machine := Function.update f.machine r.serial m }

def codeGens (hmac : Hmac) (f : Factory) (runs : List Run) : Factory :=
  runs.foldl (codeGen hmac) f

def Machine.files (m : Machine) : Directory
  | .key => m.keyFile.map utf8Bytes
  | .accountId => m.accountId.map utf8Bytes
  | file => m.state file

def emptyFolder : Folder := ⟨none, [], []⟩

def runsOf (serial : ℕ) (runs : List Run) : List Run :=
  runs.filter (fun r => r.serial = serial ∧ r.stick = true)

def keyOf (r : Run) : Text := passwordGenerator r.choices

def dataOf (hmac : Hmac) (deviceId : Text) (r : Run) : TestCodeData :=
  keyGen hmac (keyOf r) deviceId

structure Follows (hmac : Hmac) (start : Factory) (serial : ℕ) (runs : List Run)
    (t : Factory) : Prop where
  machineId : ∀ k, (t.machine k).machineId = (start.machine k).machineId
  key : ∀ last ∈ (runsOf serial runs).getLast?, (t.machine serial).keyFile = some (keyOf last)
  accountId : runsOf serial runs ≠ [] →
    (t.machine serial).accountId = some (deviceId (start.machine serial))
  usedCodes : runsOf serial runs ≠ [] → (t.machine serial).state .usedCodes = none
  backup : ∀ earlier previous last, runsOf serial runs = earlier++[previous, last] →
    (t.machine serial).backupKey = some (keyOf previous)
  csv : (t.folder (deviceId (start.machine serial))).csv =
    provision ((runsOf serial runs).map (dataOf hmac (deviceId (start.machine serial))))
  json : (t.folder (deviceId (start.machine serial))).json =
    (runsOf serial runs).map (dataOf hmac (deviceId (start.machine serial)))

theorem runsOf_snoc (serial : ℕ) (runs : List Run) (r : Run) :
    runsOf serial (runs++[r]) =
      if r.serial = serial ∧ r.stick = true then runsOf serial runs++[r]
      else runsOf serial runs := by
  rw [runsOf,List.filter_append,List.filter_singleton]
  by_cases h : r.serial = serial ∧ r.stick = true
  · rw [if_pos h]
    simp [runsOf,h]
  · rw [if_neg h]
    simp [runsOf,h]

theorem runKeyInstall_machine (hmac : Hmac) {choices : Text} (h : Chosen choices) (id : Text)
    (m : Machine) (folder : Folder) :
    (runKeyInstall hmac choices id m folder).1 =
      { backupFile m with
        keyFile := some (passwordGenerator choices)
        state := Function.update (backupFile m).state .usedCodes none } := by
  unfold runKeyInstall removeUsedCodes addKey
  dsimp only
  rw [password_read h]

theorem backupFile_keeps (m : Machine) :
    (backupFile m).machineId = m.machineId ∧ (backupFile m).accountId = m.accountId := by
  unfold backupFile
  split <;> exact ⟨rfl,rfl⟩

theorem codeGen_machine (hmac : Hmac) (f : Factory) (r : Run) :
    (codeGen hmac f r).machine = Function.update f.machine r.serial
      (if r.stick then (runKeyInstall hmac r.choices (deviceId (f.machine r.serial))
          (readMachineId (f.machine r.serial)) (f.folder (deviceId (f.machine r.serial)))).1
        else readMachineId (f.machine r.serial)) := by
  unfold codeGen
  split_ifs <;> rfl

theorem codeGen_folder (hmac : Hmac) (f : Factory) (r : Run) :
    (codeGen hmac f r).folder = if r.stick then
      Function.update f.folder (deviceId (f.machine r.serial))
        (generateCodes hmac (keyOf r) (deviceId (f.machine r.serial))
          { f.folder (deviceId (f.machine r.serial)) with generatedKey := some (keyOf r) })
    else f.folder := by
  unfold codeGen
  split_ifs <;> rfl

theorem codeGen_machineId (hmac : Hmac) (f : Factory) (r : Run) (k : ℕ) :
    ((codeGen hmac f r).machine k).machineId = (f.machine k).machineId := by
  rw [codeGen_machine]
  by_cases hk : k = r.serial
  · subst hk
    rw [Function.update_self]
    split_ifs
    · show (addKey (backupFile _) _).machineId = _
      unfold addKey
      exact (backupFile_keeps (readMachineId (f.machine r.serial))).1
    · rfl
  · rw [Function.update_of_ne hk]

theorem codeGen_other (hmac : Hmac) {f : Factory} {r : Run} {serial : ℕ}
    (h : ¬ (r.serial = serial ∧ r.stick = true)) :
    (codeGen hmac f r).machine serial = f.machine serial ∨
      (codeGen hmac f r).machine serial = readMachineId (f.machine serial) := by
  rw [codeGen_machine]
  by_cases hk : serial = r.serial
  · subst hk
    rw [Function.update_self,if_neg (fun hs => h ⟨rfl,hs⟩)]
    exact Or.inr rfl
  · rw [Function.update_of_ne hk]
    exact Or.inl rfl

theorem other_follows {hmac : Hmac} {start t : Factory} {serial : ℕ} {runs : List Run}
    (h : Follows hmac start serial runs t) (r : Run)
    (hid : r.stick = true → deviceId (start.machine r.serial) = deviceId (start.machine serial) →
      r.serial = serial)
    (hr : ¬ (r.serial = serial ∧ r.stick = true)) :
    Follows hmac start serial (runs++[r]) (codeGen hmac t r) := by
  have hruns : runsOf serial (runs++[r]) = runsOf serial runs := by rw [runsOf_snoc,if_neg hr]
  have hdevice (k : ℕ) : deviceId (t.machine k) = deviceId (start.machine k) := by
    rw [deviceId,deviceId,h.machineId]
  have hfolder : (codeGen hmac t r).folder (deviceId (start.machine serial)) =
      t.folder (deviceId (start.machine serial)) := by
    rw [codeGen_folder]
    split_ifs with hs
    · apply Function.update_of_ne
      rw [hdevice]
      exact fun he => hr ⟨hid hs he.symm,hs⟩
    · rfl
  have hkept : ((codeGen hmac t r).machine serial).keyFile = (t.machine serial).keyFile ∧
      ((codeGen hmac t r).machine serial).state = (t.machine serial).state ∧
      ((codeGen hmac t r).machine serial).backupKey = (t.machine serial).backupKey := by
    rcases codeGen_other hmac hr with hm | hm <;> rw [hm] <;> exact ⟨rfl,rfl,rfl⟩
  refine ⟨fun k => (codeGen_machineId hmac t r k).trans (h.machineId k),?_,?_,?_,?_,?_,?_⟩
  all_goals rw [hruns]
  · rw [hkept.1]
    exact h.key
  · intro hne
    rcases codeGen_other hmac hr with hm | hm
    · rw [hm]
      exact h.accountId hne
    · rw [hm]
      exact congrArg some (hdevice serial)
  · rw [hkept.2.1]
    exact h.usedCodes
  · rw [hkept.2.2]
    exact h.backup
  · rw [hfolder]
    exact h.csv
  · rw [hfolder]
    exact h.json

theorem own_follows {hmac : Hmac} {start t : Factory} {serial : ℕ} {runs : List Run}
    (h : Follows hmac start serial runs t) (r : Run) (hc : Chosen r.choices)
    (hall : ∀ r ∈ runsOf serial runs, Chosen r.choices)
    (hr : r.serial = serial ∧ r.stick = true) :
    Follows hmac start serial (runs++[r]) (codeGen hmac t r) := by
  obtain ⟨rfl,hs⟩ := hr
  have hruns : runsOf r.serial (runs++[r]) = runsOf r.serial runs++[r] := by
    rw [runsOf_snoc,if_pos ⟨rfl,hs⟩]
  have hdevice : deviceId (t.machine r.serial) = deviceId (start.machine r.serial) := by
    rw [deviceId,deviceId,h.machineId]
  have hm : (codeGen hmac t r).machine r.serial =
      { backupFile (readMachineId (t.machine r.serial)) with
        keyFile := some (keyOf r)
        state := Function.update (backupFile (readMachineId (t.machine r.serial))).state
          .usedCodes none } := by
    rw [codeGen_machine,Function.update_self,if_pos hs,runKeyInstall_machine hmac hc]
    rfl
  have hf : (codeGen hmac t r).folder (deviceId (start.machine r.serial)) =
      generateCodes hmac (keyOf r) (deviceId (start.machine r.serial))
        { t.folder (deviceId (start.machine r.serial)) with generatedKey := some (keyOf r) } := by
    rw [codeGen_folder,if_pos hs,hdevice,Function.update_self]
  refine ⟨fun k => (codeGen_machineId hmac t r k).trans (h.machineId k),?_,?_,?_,?_,?_,?_⟩
  all_goals rw [hruns]
  · intro last hlast
    rw [List.getLast?_concat,Option.mem_some_iff] at hlast
    rw [hm,hlast]
  · intro _
    rw [hm]
    exact (backupFile_keeps _).2.trans (congrArg some hdevice)
  · intro _
    rw [hm]
    simp only [Function.update_self]
  · intro earlier previous last he
    have hsplit : runsOf r.serial runs = earlier++[previous] := by
      have : runsOf r.serial runs++[r] = (earlier++[previous])++[last] := by
        rw [he,List.append_assoc]
        rfl
      exact (List.append_inj' this rfl).1
    have hkey := h.key previous (by rw [hsplit,List.getLast?_concat]; rfl)
    have hchosen : Chosen previous.choices := by
      apply hall
      rw [hsplit]
      exact List.mem_append_right _ (List.mem_singleton_self _)
    have hread : (readMachineId (t.machine r.serial)).keyFile = some (keyOf previous) := hkey
    rw [hm]
    show (backupFile (readMachineId (t.machine r.serial))).backupKey = _
    unfold backupFile
    rw [hread]
    exact congrArg some (password_read hchosen)
  · rw [hf,List.map_append,provision,List.foldl_append]
    show writeToCsv (t.folder _).csv _ = _
    rw [h.csv]
    rfl
  · rw [hf,List.map_append]
    show (t.folder _).json++_ = _
    rw [h.json]
    rfl

/-- No other machine of the runs has the device id of this one. -/
def OwnFolder (start : Factory) (serial : ℕ) (runs : List Run) : Prop :=
  ∀ r ∈ runs, r.stick = true →
    deviceId (start.machine r.serial) = deviceId (start.machine serial) → r.serial = serial

theorem runs_follow (hmac : Hmac) (start : Factory) (serial : ℕ)
    (hempty : start.folder (deviceId (start.machine serial)) = emptyFolder) (runs : List Run)
    (hid : OwnFolder start serial runs)
    (hc : ∀ r ∈ runs, r.stick = true → Chosen r.choices) :
    Follows hmac start serial runs (codeGens hmac start runs) := by
  induction runs using List.reverseRecOn with
  | nil =>
    refine ⟨fun _ => rfl,nofun,fun h => absurd rfl h,fun h => absurd rfl h,?_,?_,?_⟩
    · intro earlier previous last h
      have hl := congrArg List.length h
      simp [runsOf] at hl
    · show (start.folder _).csv = _
      rw [hempty]
      rfl
    · show (start.folder _).json = _
      rw [hempty]
      rfl
  | append_singleton runs r ih =>
    have hbefore := ih (fun r' hr' => hid r' (List.mem_append_left _ hr'))
      (fun r' hr' => hc r' (List.mem_append_left _ hr'))
    have hlast : r ∈ runs++[r] := List.mem_append_right _ (List.mem_singleton_self r)
    rw [codeGens,List.foldl_append]
    by_cases hr : r.serial = serial ∧ r.stick = true
    · apply own_follows hbefore r (hc r hlast hr.2) _ hr
      intro r' hr'
      obtain ⟨hm,hmine⟩ := List.mem_filter.mp hr'
      exact hc r' (List.mem_append_left _ hm) (of_decide_eq_true hmine).2
    · exact other_follows hbefore r (hid r hlast) hr

structure HexId (machineId : Text) : Prop where
  length : 8 ≤ machineId.length
  digits : ∀ c ∈ machineId, c ∈ "0123456789abcdef".toList

theorem toUpper_hex : ∀ c ∈ "0123456789abcdef".toList,
    c.toUpper.isDigit = true ∨ c.toUpper ∈ "abcdefABCDEF".toList := by
  have hall : "0123456789abcdef".toList.all (fun c =>
      c.toUpper.isDigit || "abcdefABCDEF".toList.contains c.toUpper) = true := by decide
  intro c hc
  have h := List.all_eq_true.mp hall c hc
  rwa [Bool.or_eq_true,List.contains_iff_mem] at h

theorem dataOf_wellFormed (hmac : Hmac) (m : Machine) (hm : HexId m.machineId) (r : Run)
    (hc : Chosen r.choices) : WellFormed (dataOf hmac (deviceId m) r) where
  idLength := by
    have hlength := hm.length
    show ((m.machineId.take 8).map Char.toUpper).length = 8
    rw [List.length_map,List.length_take]
    omega
  idDigits := by
    intro c hc
    obtain ⟨d,hd,rfl⟩ := List.mem_map.mp hc
    exact toUpper_hex d (hm.digits d (List.mem_of_mem_take hd))
  keyLength := by
    show 64 ≤ (passwordGenerator r.choices).countP Char.isAlphanum
    rw [password_countP hc]
    decide
  keyChars := fun c hmem => password_mem hc c hmem

theorem single_run_entries (data : TestCodeData) (h : WellFormed data) :
    ∃ idToKey, acctCsvGetIdToKey (provision [data]) = .ok idToKey ∧
      idToKey.entries = [⟨data.deviceId, data.key⟩] := by
  have hread : readLoop false (setKey ∅ header) [deviceRow data] =
      .ok (setKey (setKey ∅ header) (deviceRow data)) :=
    (readLoop_ok_iff _ _ _).mpr
      ⟨List.forall_mem_singleton.mpr (deviceRow_wellFormed data h),rfl⟩
  refine ⟨_,(acctCsvGetIdToKey_header [deviceRow data]).trans (congrArg _ hread),?_⟩
  have hne := wellFormed_id_ne data h
  let named : Sigma (fun _ : Text => Text) := ⟨"device_id".toList, "key".toList⟩
  have hkept : List.kerase data.deviceId [named] = [named] :=
    List.kerase_of_notMem_keys (by simpa [named] using hne)
  show List.kerase named.1 (⟨data.deviceId, data.key⟩::List.kerase data.deviceId [named]) = _
  rw [hkept,List.kerase_cons_ne hne.symm,List.kerase_cons_eq rfl]

theorem runsOf_chosen {serial : ℕ} {runs : List Run}
    (hc : ∀ r ∈ runs, r.stick = true → Chosen r.choices) :
    ∀ r ∈ runsOf serial runs, Chosen r.choices := by
  intro r hr
  obtain ⟨hm,hmine⟩ := List.mem_filter.mp hr
  exact hc r hm (of_decide_eq_true hmine).2

theorem follows_files {hmac : Hmac} {start t : Factory} {serial : ℕ} {runs : List Run}
    (h : Follows hmac start serial runs t) {earlier : List Run} {last : Run}
    (hl : runsOf serial runs = earlier++[last]) :
    (t.machine serial).files .key = some (utf8Bytes (keyOf last)) ∧
      (t.machine serial).files .usedCodes = none ∧
      (t.machine serial).files .accountId =
        some (utf8Bytes (deviceId (start.machine serial))) := by
  have hne : runsOf serial runs ≠ [] := by
    rw [hl]
    exact List.append_ne_nil_of_right_ne_nil _ (List.cons_ne_nil _ _)
  refine ⟨?_,h.usedCodes hne,?_⟩
  · show (t.machine serial).keyFile.map utf8Bytes = _
    rw [h.key last (by rw [hl,List.getLast?_concat]; rfl)]
    rfl
  · show (t.machine serial).accountId.map utf8Bytes = _
    rw [h.accountId hne]
    rfl

/-- After any runs for any machines: a machine has the last key that was made for it, no
used codes, and its last key but one in the backup. One of the tables in its folder lists
all its keys with their codes. The code generator can make use of the other after the
first run, and never again. -/
theorem keys_agree (hmac : Hmac) (start : Factory) (serial : ℕ)
    (hhex : HexId (start.machine serial).machineId)
    (hempty : start.folder (deviceId (start.machine serial)) = emptyFolder) (runs : List Run)
    (hid : OwnFolder start serial runs)
    (hc : ∀ r ∈ runs, r.stick = true → Chosen r.choices) (earlier : List Run) (last : Run)
    (hl : runsOf serial runs = earlier++[last]) :
    let m := (codeGens hmac start runs).machine serial
    let id := deviceId (start.machine serial)
    let folder := (codeGens hmac start runs).folder id
    (m.files .key = some (utf8Bytes (keyOf last)) ∧ m.files .usedCodes = none ∧
        m.files .accountId = some (utf8Bytes id)) ∧
      (∀ previous ∈ earlier.getLast?, m.backupKey = some (keyOf previous)) ∧
      folder.json = (earlier++[last]).map (dataOf hmac id) ∧
      (earlier = [] → ∃ idToKey, acctCsvGetIdToKey folder.csv = .ok idToKey ∧
        idToKey.entries = [⟨id, keyOf last⟩]) ∧
      (earlier ≠ [] → ∃ e, acctCsvGetIdToKey folder.csv = .error e) := by
  intro m id folder
  have h := runs_follow hmac start serial hempty runs hid hc
  have hcsv : folder.csv = provision ((earlier++[last]).map (dataOf hmac id)) := by
    rw [← hl]
    exact h.csv
  refine ⟨follows_files h hl,?_,?_,?_,?_⟩
  · intro previous hp
    obtain ⟨before,rfl⟩ := List.getLast?_eq_some_iff.mp hp
    apply h.backup before previous last
    rw [hl,List.append_assoc]
    rfl
  · rw [← hl]
    exact h.json
  · rintro rfl
    rw [hcsv]
    have hchosen : Chosen last.choices := by
      apply runsOf_chosen hc
      rw [hl]
      exact List.mem_singleton_self last
    exact single_run_entries _ (dataOf_wellFormed hmac _ hhex last hchosen)
  · intro hearlier
    obtain ⟨first,rest,rfl⟩ := List.exists_cons_of_ne_nil hearlier
    cases hr : acctCsvGetIdToKey folder.csv with
    | error e => exact ⟨e,rfl⟩
    | ok idToKey =>
      rw [hcsv,provision_eq] at hr
      refine absurd hr (acctCsvGetIdToKey_second_header
        (deviceRow (dataOf hmac id first)::
          ((rest++[last]).map (dataOf hmac id)).flatMap (fun data => [header, deviceRow data]))
        ?_ idToKey)
      apply List.mem_cons_of_mem
      rw [List.map_append,List.flatMap_append]
      exact List.mem_append_right _ List.mem_cons_self

def sixteenMachines (serial : ℕ) : Machine where
  machineId := List.replicate 8 ("0123456789abcdef".toList.getD serial '0')
  accountId := none
  keyFile := none
  backupKey := none
  state := fun _ => none

def newFactory : Factory := ⟨sixteenMachines, fun _ => emptyFolder⟩

def threeRuns : List Run :=
  [⟨11, true, List.replicate 768 'a'⟩, ⟨10, true, List.replicate 768 'b'⟩,
    ⟨11, false, []⟩, ⟨11, true, List.replicate 768 'c'⟩]

theorem replicate_chosen (c : Char) (h : c.isAlphanum = true) : Chosen (List.replicate 768 c) :=
  ⟨List.length_replicate,fun d hd => by rw [List.eq_of_mem_replicate hd]; exact h⟩

theorem threeRuns_ownFolder : OwnFolder newFactory 11 threeRuns := by
  have hother : deviceId (newFactory.machine 10) ≠ deviceId (newFactory.machine 11) := by decide
  intro r hr _ hid
  simp only [threeRuns,List.mem_cons,List.not_mem_nil,or_false] at hr
  rcases hr with rfl | rfl | rfl | rfl
  · rfl
  · exact absurd hid hother
  · rfl
  · rfl

theorem threeRuns_chosen : ∀ r ∈ threeRuns, r.stick = true → Chosen r.choices := by
  intro r hr hs
  simp only [threeRuns,List.mem_cons,List.not_mem_nil,or_false] at hr
  rcases hr with rfl | rfl | rfl | rfl
  · exact replicate_chosen 'a' (by decide)
  · exact replicate_chosen 'b' (by decide)
  · cases hs
  · exact replicate_chosen 'c' (by decide)

theorem newFactory_hexId (serial : ℕ) (h : serial < 16) :
    HexId (newFactory.machine serial).machineId where
  length := by
    show 8 ≤ (List.replicate 8 _).length
    rw [List.length_replicate]
  digits := by
    intro c hc
    have hlength : serial < "0123456789abcdef".toList.length := h
    rw [List.eq_of_mem_replicate hc,List.getD_eq_getElem?_getD,List.getElem?_eq_getElem hlength]
    exact List.getElem_mem hlength

theorem keys_agree_twice :
    let m := (codeGens zeroHmac newFactory threeRuns).machine 11
    let folder := (codeGens zeroHmac newFactory threeRuns).folder (deviceId (newFactory.machine 11))
    m.backupKey = some (passwordGenerator (List.replicate 768 'a')) ∧
      folder.json.length = 2 ∧ ∃ e, acctCsvGetIdToKey folder.csv = .error e := by
  obtain ⟨-,hbackup,hjson,-,hcsv⟩ := keys_agree zeroHmac newFactory 11
    (newFactory_hexId 11 (by decide)) rfl threeRuns threeRuns_ownFolder threeRuns_chosen
    [⟨11, true, List.replicate 768 'a'⟩] ⟨11, true, List.replicate 768 'c'⟩ rfl
  exact ⟨hbackup _ rfl,congrArg List.length hjson,hcsv (List.cons_ne_nil _ _)⟩

end EosPayg.ProvisioningRuns
