import Mathlib.Data.List.AList
import Mathlib.Tactic

/-!
# The table of provisioned devices

Each provisioning run appends to a file of comma-separated values, from which
the code generator takes the last key of every device. The file is kept here as
its rows: writing and reading them are inverse. The writer means to put a header
into a new file only, but looks for one in a file it cannot read.
-/

set_option autoImplicit false

namespace EosPayg.ProvisioningCsv

abbrev Text := List Char
abbrev Row := List Text

inductive OpenMode where
  | read
  | append

inductive OSError where
  | unsupportedOperation

/-- A file opened for appending cannot be read. -/
def readRows (rows : List Row) : OpenMode → Except OSError (List Row)
  | .read => .ok rows
  | .append => .error .unsupportedOperation

structure TestCodeData where
  deviceId : Text
  testCodes : Fin 3 → Text
  key : Text

def header : Row :=
  ["device_id".toList, "code1".toList, "code2".toList, "code3".toList, "key".toList]

/-- Neither a separator nor a quote is part of the text searched for, so it can
only be found within a cell. -/
def fieldsExist (rows : List Row) : Bool :=
  match readRows rows .append with
  | .ok rows => rows.any (fun row => row.any (fun cell => decide ("device_id".toList <:+: cell)))
  | .error _ => false

def writeToCsv (rows : List Row) (data : TestCodeData) : List Row :=
  if fieldsExist rows then
    rows++[[data.deviceId, data.testCodes 0, data.testCodes 1, data.testCodes 1, data.key]]
  else
    rows++[header]++
      [[data.deviceId, data.testCodes 0, data.testCodes 1, data.testCodes 2, data.key]]

def provision (runs : List TestCodeData) : List Row := runs.foldl writeToCsv []

inductive CsvParseError where
  | expectedHeader (got : Row)
  | expectedColumns (got : ℕ)
  | minimumKeyLength (got : ℕ)
  deriving DecidableEq

abbrev IdToKey := AList (fun _ : Text => Text)

def expectedColLen : ℕ := 5
def expectedKeyMin : ℕ := 64

def isSpace (c : Char) : Bool :=
  let n := c.toNat
  (9 ≤ n ∧ n ≤ 13) ∨ (28 ≤ n ∧ n ≤ 32) ∨ n = 133 ∨ n = 160 ∨ n = 5760 ∨ (8192 ≤ n ∧ n ≤ 8202) ∨
    n = 8232 ∨ n = 8233 ∨ n = 8239 ∨ n = 8287 ∨ n = 12288

def strip (t : Text) : Text := ((t.dropWhile isSpace).reverse.dropWhile isSpace).reverse

def headerNorm (row : Row) : Text := strip (List.intercalate [','] row)

def headerExpected : Text := "device_id,code1,code2,code3,key".toList

def checkHeader (row : Row) : Except CsvParseError Unit :=
  if headerNorm row ≠ headerExpected then .error (.expectedHeader row) else .ok ()

def checkRow (row : Row) : Except CsvParseError Unit :=
  if row.length ≠ expectedColLen then .error (.expectedColumns row.length)
  else if (row.getLastD []).length < expectedKeyMin then
    .error (.minimumKeyLength (row.getLastD []).length)
  else .ok ()

def setKey (idToKey : IdToKey) (row : Row) : IdToKey :=
  idToKey.insert (row.headD []) (row.getLastD [])

def readLoop : Bool → IdToKey → List Row → Except CsvParseError IdToKey
  | _, idToKey, [] => .ok idToKey
  | firstRow, idToKey, row::rows =>
    match if firstRow then checkHeader row else checkRow row with
    | .error err => .error err
    | .ok () => readLoop false (setKey idToKey row) rows

def acctCsvGetIdToKey (rows : List Row) : Except CsvParseError IdToKey :=
  (readLoop true ∅ rows).map (fun idToKey => idToKey.erase "device_id".toList)

def DeviceRow (row : Row) : Prop :=
  row.length = expectedColLen ∧ expectedKeyMin ≤ (row.getLastD []).length

theorem checkRow_ok_iff (row : Row) : checkRow row = .ok () ↔ DeviceRow row := by
  unfold checkRow DeviceRow
  split_ifs with hlen hkey
  · exact iff_of_false (fun h => by cases h) (fun h => hlen h.1)
  · exact iff_of_false (fun h => by cases h) (fun h => absurd hkey (Nat.not_lt.mpr h.2))
  · exact iff_of_true rfl ⟨not_not.mp hlen,Nat.not_lt.mp hkey⟩

/-- Behind the header, exactly device rows are accepted, and a later key of a
device replaces an earlier one. -/
theorem readLoop_ok_iff (rows : List Row) (d d' : IdToKey) :
    readLoop false d rows = .ok d' ↔ (∀ row ∈ rows, DeviceRow row) ∧ rows.foldl setKey d = d' := by
  induction rows generalizing d with
  | nil =>
    rw [readLoop,Except.ok.injEq]
    exact ⟨fun h => ⟨fun _ hr => absurd hr List.not_mem_nil,h⟩,fun h => h.2⟩
  | cons row rows ih =>
    have hcheck := checkRow_ok_iff row
    rw [readLoop,List.forall_mem_cons,List.foldl_cons,and_assoc,← ih (setKey d row),← hcheck]
    simp only [Bool.false_eq_true,if_false]
    cases hc : checkRow row with
    | error err => exact iff_of_false (fun h => by cases h) (fun h => by cases h.1)
    | ok u => exact ⟨fun h => ⟨rfl,h⟩,fun h => h.2⟩

/-- A device id of eight hex digits, and a key of letters and digits broken into
lines. -/
structure WellFormed (data : TestCodeData) : Prop where
  idLength : data.deviceId.length = 8
  idDigits : ∀ c ∈ data.deviceId, c.isDigit ∨ c ∈ "abcdefABCDEF".toList
  keyLength : 64 ≤ data.key.countP Char.isAlphanum
  keyChars : ∀ c ∈ data.key, c.isAlphanum ∨ c = '\n'

def deviceRow (data : TestCodeData) : Row :=
  [data.deviceId, data.testCodes 0, data.testCodes 1, data.testCodes 2, data.key]

def lastKey (runs : List TestCodeData) (deviceId : Text) : Option Text :=
  (runs.reverse.find? (fun data => data.deviceId = deviceId)).map (fun data => data.key)

/-- The reader accepts the file and finds the last key of each device written,
and each run has left its device row. -/
def ReadableByGenerator (runs : List TestCodeData) (rows : List Row) : Prop :=
  (∃ idToKey, acctCsvGetIdToKey rows = .ok idToKey ∧
    ∀ deviceId, idToKey.lookup deviceId = lastKey runs deviceId) ∧
  rows.filter (fun row => row ≠ header) = runs.map deviceRow

theorem writeToCsv_eq (rows : List Row) (data : TestCodeData) :
    writeToCsv rows data = rows++[header, deviceRow data] :=
  List.append_assoc rows [header] [deviceRow data]

theorem provision_eq (runs : List TestCodeData) :
    provision runs = runs.flatMap (fun data => [header, deviceRow data]) := by
  have hfold (rows : List Row) :
      runs.foldl writeToCsv rows = rows++runs.flatMap (fun data => [header, deviceRow data]) := by
    induction runs generalizing rows with
    | nil => exact (List.append_nil rows).symm
    | cons data runs ih =>
      rw [List.foldl_cons,ih,writeToCsv_eq,List.flatMap_cons,List.append_assoc]
  exact hfold []

theorem header_not_deviceRow : ¬ DeviceRow header := by
  rintro ⟨-,h⟩
  exact absurd h (by decide)

theorem deviceRow_wellFormed (data : TestCodeData) (h : WellFormed data) :
    DeviceRow (deviceRow data) :=
  ⟨rfl,h.keyLength.trans List.countP_le_length⟩

theorem wellFormed_id_ne (data : TestCodeData) (h : WellFormed data) :
    data.deviceId ≠ "device_id".toList := by
  intro he
  have hl := h.idLength
  rw [he] at hl
  exact absurd hl (by decide)

theorem deviceRow_ne_header (data : TestCodeData) (h : WellFormed data) :
    deviceRow data ≠ header := by
  intro he
  exact wellFormed_id_ne data h (List.cons.inj he).1

theorem provision_deviceRows (runs : List TestCodeData) (h : ∀ data ∈ runs, WellFormed data) :
    (provision runs).filter (fun row => row ≠ header) = runs.map deviceRow := by
  rw [provision_eq]
  induction runs with
  | nil => rfl
  | cons data runs ih =>
    obtain ⟨hdata,hruns⟩ := List.forall_mem_cons.mp h
    have hrow : decide (deviceRow data ≠ header) = true :=
      decide_eq_true (deviceRow_ne_header data hdata)
    have hhead : decide (header ≠ header) = false := decide_eq_false (not_not.mpr rfl)
    rw [List.flatMap_cons,List.filter_append,ih hruns,List.filter_cons,List.filter_cons,hrow,hhead]
    rfl

theorem acctCsvGetIdToKey_header (rows : List Row) :
    acctCsvGetIdToKey (header::rows) =
      (readLoop false (setKey ∅ header) rows).map (fun d => d.erase "device_id".toList) := by
  have hcheck : checkHeader header = .ok () := by decide +kernel
  simp only [acctCsvGetIdToKey,readLoop,if_true,hcheck]

theorem acctCsvGetIdToKey_second_header (rows : List Row) (h : header ∈ rows) (d : IdToKey) :
    acctCsvGetIdToKey (header::rows) ≠ .ok d := by
  rw [acctCsvGetIdToKey_header]
  cases hr : readLoop false (setKey ∅ header) rows with
  | error err => exact fun he => by cases he
  | ok d' =>
    have hrows := ((readLoop_ok_iff rows _ d').mp hr).1
    exact absurd (hrows header h) header_not_deviceRow

theorem single_run_readable (data : TestCodeData) (h : WellFormed data) :
    ∃ idToKey, acctCsvGetIdToKey (provision [data]) = .ok idToKey ∧
      ∀ deviceId, idToKey.lookup deviceId = lastKey [data] deviceId := by
  have hread : readLoop false (setKey ∅ header) [deviceRow data] =
      .ok (setKey (setKey ∅ header) (deviceRow data)) :=
    (readLoop_ok_iff _ _ _).mpr
      ⟨List.forall_mem_singleton.mpr (deviceRow_wellFormed data h),rfl⟩
  refine ⟨_,(acctCsvGetIdToKey_header [deviceRow data]).trans (congrArg _ hread),?_⟩
  intro deviceId
  have hne := wellFormed_id_ne data h
  have hhead : setKey ∅ header = AList.insert "device_id".toList "key".toList (∅ : IdToKey) := rfl
  show ((AList.insert data.deviceId data.key (setKey ∅ header)).erase
    "device_id".toList).lookup deviceId = _
  rw [hhead]
  by_cases hd : deviceId = data.deviceId
  · rw [hd,AList.lookup_erase_ne hne,AList.lookup_insert]
    simp only [lastKey,List.reverse_singleton,List.find?_cons,decide_true,Option.map_some]
  · have hlast : lastKey [data] deviceId = none := by
      simp only [lastKey,List.reverse_singleton,List.find?_cons,decide_eq_false (Ne.symm hd),
        List.find?_nil,Option.map_none]
    rw [hlast]
    by_cases hh : deviceId = "device_id".toList
    · rw [hh,AList.lookup_erase]
    · rw [AList.lookup_erase_ne hh,AList.lookup_insert_ne hd,AList.lookup_insert_ne hh,
        AList.lookup_empty]

/-- The file of a sequence of provisioning runs can be read by the code
generator, with every device's last key, if and only if there was one run. -/
theorem readable_iff_single_run (runs : List TestCodeData) (hne : runs ≠ [])
    (h : ∀ data ∈ runs, WellFormed data) :
    ReadableByGenerator runs (provision runs) ↔ runs.length = 1 := by
  rcases runs with _ | ⟨data,_ | ⟨next,rest⟩⟩
  · exact absurd rfl hne
  · exact iff_of_true
      ⟨single_run_readable data (h data List.mem_cons_self),provision_deviceRows [data] h⟩ rfl
  · refine iff_of_false ?_ (fun hl => by cases hl)
    rintro ⟨⟨d,hd,-⟩,-⟩
    rw [provision_eq] at hd
    exact acctCsvGetIdToKey_second_header
      (deviceRow data::header::deviceRow next::rest.flatMap (fun data => [header, deviceRow data]))
      (List.mem_cons_of_mem _ List.mem_cons_self) d hd

def exampleRun : TestCodeData :=
  ⟨"0CE89073".toList,fun _ => "08339456".toList,List.replicate 70 'a'++['\n']++List.replicate 70 'b'⟩

theorem exampleRun_wellFormed : WellFormed exampleRun := by
  have hid : exampleRun.deviceId = "0CE89073".toList := rfl
  have hkey : exampleRun.key = List.replicate 70 'a'++['\n']++List.replicate 70 'b' := rfl
  refine ⟨?_,?_,?_,?_⟩
  · rw [hid]
    rfl
  · rw [hid]
    simp
  · rw [hkey]
    simp
  · rw [hkey]
    intro c hc
    simp only [List.mem_append,List.mem_replicate,List.mem_singleton] at hc
    rcases hc with (⟨-,rfl⟩ | rfl) | ⟨-,rfl⟩ <;> decide

theorem readable_iff_single_run_example :
    ReadableByGenerator [exampleRun] (provision [exampleRun]) ↔ [exampleRun].length = 1 :=
  readable_iff_single_run [exampleRun] (by decide)
    (List.forall_mem_singleton.mpr exampleRun_wellFormed)

/-- Provisioning a device twice leaves a file whose second header is taken for a
device row with a key of three characters. -/
theorem second_run_unreadable :
    ¬ ∀ runs : List TestCodeData, runs ≠ [] → (∀ data ∈ runs, WellFormed data) →
      ReadableByGenerator runs (provision runs) := by
  intro h
  obtain ⟨⟨d,hd,-⟩,-⟩ := h [exampleRun, exampleRun] (by decide)
    (fun data hm => by
      rcases List.mem_pair.mp hm with rfl | rfl
      · exact exampleRun_wellFormed
      · exact exampleRun_wellFormed)
  have herr : acctCsvGetIdToKey (provision [exampleRun, exampleRun]) =
      .error (.minimumKeyLength 3) := by decide +kernel
  rw [herr] at hd
  cases hd

end EosPayg.ProvisioningCsv
