import EosPayg.CodeStrings
import EosPayg.ProvisioningCsv

/-!
# The tables of time codes

For every device a script writes the key to a file, runs the generator on it
once for each of ten periods, and turns the ten columns of codes into the rows
of a table. The generator counts in sixty-four bits, so it reaches the last
counter of eight bits and stops behind it; a code is larger the longer its
period, and among equal periods the larger its counter.
-/

set_option autoImplicit false

namespace EosPayg.BulkCodes
open EosPayg.PaygCodes EosPayg.CodeAcceptance EosPayg.CodeStrings EosPayg.ProvisioningCsv

def periods : List (EpcPeriod × Text) :=
  [(.period5Seconds, "5s".toList), (.period1Minute, "1m".toList),
    (.period5Minutes, "5m".toList), (.period30Minutes, "30m".toList),
    (.period1Hour, "1h".toList), (.period8Hours, "8h".toList), (.period1Day, "1d".toList),
    (.period2Days, "2d".toList), (.period3Days, "3d".toList), (.period4Days, "4d".toList),
    (.period5Days, "5d".toList), (.period6Days, "6d".toList), (.period7Days, "7d".toList),
    (.period8Days, "8d".toList), (.period9Days, "9d".toList), (.period10Days, "10d".toList),
    (.period11Days, "11d".toList), (.period12Days, "12d".toList),
    (.period13Days, "13d".toList), (.period14Days, "14d".toList),
    (.period30Days, "30d".toList), (.period31Days, "31d".toList),
    (.period60Days, "60d".toList), (.period90Days, "90d".toList),
    (.period120Days, "120d".toList), (.period365Days, "365d".toList),
    (.infinite, "infinite".toList)]

def parsePeriod (periodStr : Text) : Except CodeError EpcPeriod :=
  match periods.find? (fun entry => entry.2 = periodStr) with
  | some entry => .ok entry.1
  | none => .error ⟨.invalidPeriod, "Invalid period ‘" ++ String.ofList periodStr ++ "’."⟩

inductive ExitStatus where
  | ok | invalidOptions | failed
  deriving DecidableEq, Repr

structure ProgramRun where
  status : ExitStatus
  stdout : List UInt8

def printedCode (code : UInt32) : List UInt8 :=
  (epcFormatCodeChecked code).getD (utf8Bytes "(null)".toList) ++ [10]

/-- The loop over the counters. Its variable is wider than the counter it is
handed on as. -/
def generateLoop (hmac : Hmac) (period : EpcPeriod) (key : List UInt8) (maxCounter : UInt8)
    (counter : UInt64) (printed : List UInt8) : ProgramRun :=
  if counter ≤ maxCounter.toUInt64 then
    match epcCalculateCode hmac period.value counter.toUInt8 key with
    | .error _ => ⟨.failed, printed⟩
    | .ok code =>
      generateLoop hmac period key maxCounter (counter+1) (printed ++ printedCode code)
  else ⟨.ok, printed⟩
termination_by 256-counter.toNat
decreasing_by
  have hle := UInt64.le_iff_toNat_le.mp ‹counter ≤ maxCounter.toUInt64›
  have hmax := maxCounter.toNat_lt
  rw [UInt8.toNat_toUInt64] at hle
  have hone : (1 : UInt64).toNat = 1 := rfl
  rw [UInt64.toNat_add,hone]
  omega

def epcMaxCounter : ℕ := 255

def counterRange (counterStr : Option Text) : Option (UInt8 × UInt8) :=
  match counterStr with
  | none => some (0, UInt8.ofNat epcMaxCounter)
  | some s => (gAsciiStringToUnsigned (utf8Bytes s) 0 epcMaxCounter).map
      (fun parsed => (UInt8.ofNat parsed, UInt8.ofNat parsed))

abbrev KeyFiles := Text → Option (List UInt8)

def generateMain (hmac : Hmac) (files : KeyFiles) (keyFilename periodStr : Text)
    (counterStr : Option Text) : ProgramRun :=
  match parsePeriod periodStr with
  | .error _ => ⟨.invalidOptions, []⟩
  | .ok period =>
    match files keyFilename with
    | none => ⟨.invalidOptions, []⟩
    | some key =>
      match counterRange counterStr with
      | none => ⟨.invalidOptions, []⟩
      | some (minCounter, maxCounter) =>
        generateLoop hmac period key maxCounter minCounter.toUInt64 []

def PERIODS : List Text :=
  ["1d".toList, "2d".toList, "3d".toList, "4d".toList, "5d".toList, "30d".toList, "60d".toList,
    "90d".toList, "365d".toList, "infinite".toList]

inductive ScriptError where
  | valueError
  | calledProcessError (status : ExitStatus)
  | unicodeDecodeError
  deriving DecidableEq

def periodToDisplayStr (period : Text) : Except ScriptError Text :=
  if period = "infinite".toList then .ok "infinite".toList
  else match period.splitOn 'd' with
    | [days, _] => .ok (if days = ['1'] then "1 day".toList else days ++ " days".toList)
    | _ => .error .valueError

def keyToFilename (key : Text) : Text := key ++ ".key".toList

def csvFilename (id : Text) : Text := id ++ ".csv".toList

def isLineBreak (c : Char) : Bool :=
  let n := c.toNat
  (10 ≤ n ∧ n ≤ 13) ∨ (28 ≤ n ∧ n ≤ 30) ∨ n = 133 ∨ n = 8232 ∨ n = 8233

/-- A carriage return and the newline after it end one line together. -/
def splitLinesFrom : Text → Text → List Text
  | line, [] => if line = [] then [] else [line]
  | line, '\r' :: '\n' :: rest => line :: splitLinesFrom [] rest
  | line, c::rest =>
    if isLineBreak c then line :: splitLinesFrom [] rest else splitLinesFrom (line++[c]) rest

def splitlines (t : Text) : List Text := splitLinesFrom [] t

def codesFor (hmac : Hmac) (files : KeyFiles) (keyFilename period : Text) :
    Except ScriptError (List Text) :=
  let run := generateMain hmac files keyFilename period none
  if run.status ≠ .ok then .error (.calledProcessError run.status)
  else match decodeUtf8 run.stdout with
    | none => .error .unicodeDecodeError
    | some output => .ok ((splitlines output).map (fun code => '\''::code))

def zipColumns : List (List Text) → List Row
  | [] => []
  | [column] => column.map (fun cell => [cell])
  | column::columns => List.zipWith List.cons column (zipColumns columns)

def deviceRows (hmac : Hmac) (files : KeyFiles) (keyFilename : Text) :
    Except ScriptError (List Row) := do
  let codesByPeriod ← PERIODS.mapM (codesFor hmac files keyFilename)
  let headers ← PERIODS.mapM periodToDisplayStr
  return headers :: zipColumns codesByPeriod

/-- The tables written, in order, with their names. A key of ASCII characters
is written as their codes. -/
def writeTimeCodes (hmac : Hmac) :
    List (Sigma (fun _ : Text => Text)) → KeyFiles → Except ScriptError (List (Text × List Row))
  | [], _ => .ok []
  | ⟨id, key⟩::rest, files => do
    let files := Function.update files (keyToFilename id) (some (utf8Bytes key))
    let rows ← deviceRows hmac files (keyToFilename id)
    let written ← writeTimeCodes hmac rest files
    return (csvFilename id, rows) :: written

def codeText (hmac : Hmac) (period : EpcPeriod) (key : List UInt8) (counter : ℕ) : Text :=
  digitText 8 (generated hmac period (UInt8.ofNat counter) key).toNat

def codeLine (hmac : Hmac) (period : EpcPeriod) (key : List UInt8) (counter : ℕ) : Text :=
  codeText hmac period key counter ++ ['\n']

theorem printedCode_generated (hmac : Hmac) (period : EpcPeriod) (key : List UInt8)
    (counter : ℕ) :
    printedCode (generated hmac period (UInt8.ofNat counter) key) =
      utf8Bytes (codeLine hmac period key counter) := by
  rw [printedCode,epcFormatCodeChecked_eq _ (generated_lt hmac period _ key),codeLine,codeText,
    utf8Bytes_append,utf8Bytes_digitText]
  rfl

theorem generateLoop_eq (hmac : Hmac) (period : EpcPeriod) (key : List UInt8)
    (hk : 64 ≤ key.length) (left : ℕ) (counter : UInt64) (printed : List UInt8)
    (h : counter.toNat+left = 256) :
    generateLoop hmac period key (UInt8.ofNat epcMaxCounter) counter printed =
      ⟨.ok, printed ++ utf8Bytes
        ((List.range' counter.toNat left).flatMap (codeLine hmac period key))⟩ := by
  have hmax : (UInt8.ofNat epcMaxCounter).toUInt64.toNat = 255 := rfl
  induction left generalizing counter printed with
  | zero =>
    have hle : ¬counter ≤ (UInt8.ofNat epcMaxCounter).toUInt64 := by
      rw [UInt64.le_iff_toNat_le,hmax]
      omega
    rw [generateLoop,if_neg hle]
    simp [utf8Bytes]
  | succ left ih =>
    have hle : counter ≤ (UInt8.ofNat epcMaxCounter).toUInt64 := by
      rw [UInt64.le_iff_toNat_le,hmax]
      omega
    have hone : (1 : UInt64).toNat = 1 := rfl
    have hnext : (counter+1).toNat = counter.toNat+1 := by
      rw [UInt64.toNat_add,hone]
      omega
    have hbyte : counter.toUInt8 = UInt8.ofNat counter.toNat := rfl
    rw [generateLoop,if_pos hle,epcCalculateCode_eq hmac period _ key hk]
    show generateLoop hmac period key _ (counter+1) _ = _
    rw [ih (counter+1) _ (by omega),hnext,hbyte,printedCode_generated,List.append_assoc,
      ← utf8Bytes_append]
    rfl

theorem generateMain_eq (hmac : Hmac) (files : KeyFiles) (keyFilename periodStr : Text)
    (period : EpcPeriod) (key : List UInt8) (hp : parsePeriod periodStr = .ok period)
    (hf : files keyFilename = some key) (hk : 64 ≤ key.length) :
    generateMain hmac files keyFilename periodStr none =
      ⟨.ok, utf8Bytes ((List.range 256).flatMap (codeLine hmac period key))⟩ := by
  have hzero : (0 : UInt8).toUInt64.toNat = 0 := rfl
  have hloop := generateLoop_eq hmac period key hk 256 (0 : UInt8).toUInt64 [] (by rw [hzero])
  rw [generateMain,hp]
  simp only [hf,counterRange]
  rw [hloop,hzero,List.range_eq_range',List.nil_append]

theorem digit_not_break (c : Char) (h : c.isDigit = true) : isLineBreak c = false ∧ c ≠ '\r' := by
  rw [Char.isDigit,Bool.and_eq_true,decide_eq_true_iff,decide_eq_true_iff] at h
  have hlo : 48 ≤ c.toNat := h.1
  have hhi : c.toNat ≤ 57 := h.2
  constructor
  · simp only [isLineBreak,decide_eq_false_iff_not]
    omega
  · rintro rfl
    exact absurd hlo (by decide)

theorem splitLinesFrom_digits (line t rest : Text) (h : ∀ c ∈ t, c.isDigit = true) :
    splitLinesFrom line (t ++ '\n' :: rest) = (line++t) :: splitLinesFrom [] rest := by
  induction t generalizing line with
  | nil =>
    rw [List.nil_append,List.append_nil,splitLinesFrom]
    · rfl
    · intro _ hc
      cases hc
  | cons c t ih =>
    obtain ⟨hc,ht⟩ := List.forall_mem_cons.mp h
    obtain ⟨hbreak,hr⟩ := digit_not_break c hc
    rw [List.cons_append,splitLinesFrom]
    · rw [if_neg (by rw [hbreak]; simp),ih (line++[c]) ht,List.append_assoc]
      rfl
    · intro _ hc
      exact absurd hc hr

theorem splitlines_lines (hmac : Hmac) (period : EpcPeriod) (key : List UInt8)
    (counters : List ℕ) :
    splitlines (counters.flatMap (codeLine hmac period key)) =
      counters.map (codeText hmac period key) := by
  induction counters with
  | nil => rfl
  | cons counter counters ih =>
    rw [List.flatMap_cons,List.map_cons,codeLine,List.append_assoc,splitlines]
    rw [← ih,splitlines]
    exact splitLinesFrom_digits [] _ _ (digitText_isDigit 8 _)

def cellText (hmac : Hmac) (key : List UInt8) (counter : ℕ) (period : EpcPeriod) : Text :=
  '\''::codeText hmac period key counter

theorem codesFor_eq (hmac : Hmac) (files : KeyFiles) (keyFilename periodStr : Text)
    (period : EpcPeriod) (key : List UInt8) (hp : parsePeriod periodStr = .ok period)
    (hf : files keyFilename = some key) (hk : 64 ≤ key.length) :
    codesFor hmac files keyFilename periodStr =
      .ok ((List.range 256).map (fun counter => cellText hmac key counter period)) := by
  rw [codesFor,generateMain_eq hmac files keyFilename periodStr period key hp hf hk]
  simp only [decodeUtf8_utf8Bytes,splitlines_lines,List.map_map]
  rfl

theorem zipColumns_map {I K : Type} (cell : I → K → Text) (is : List I) (k : K) (ks : List K) :
    zipColumns ((k::ks).map (fun k => is.map (fun i => cell i k))) =
      is.map (fun i => (k::ks).map (cell i)) := by
  induction ks generalizing k with
  | nil =>
    show (is.map (fun i => cell i k)).map _ = _
    rw [List.map_map]
    rfl
  | cons k' ks ih =>
    have h : zipColumns ((k::k'::ks).map (fun k => is.map (fun i => cell i k))) =
        List.zipWith List.cons (is.map (fun i => cell i k))
          (zipColumns ((k'::ks).map (fun k => is.map (fun i => cell i k)))) := rfl
    rw [h,ih k',List.zipWith_map,List.zipWith_self]
    rfl

def namedPeriods : List EpcPeriod :=
  [.period1Day, .period2Days, .period3Days, .period4Days, .period5Days, .period30Days,
    .period60Days, .period90Days, .period365Days, .infinite]

theorem PERIODS_named : PERIODS.map parsePeriod = namedPeriods.map Except.ok := by decide

def headers : Row :=
  ["1 day".toList, "2 days".toList, "3 days".toList, "4 days".toList, "5 days".toList,
    "30 days".toList, "60 days".toList, "90 days".toList, "365 days".toList, "infinite".toList]

theorem PERIODS_headers : PERIODS.mapM periodToDisplayStr = .ok headers := by decide +kernel

theorem mapM_named (f : Text → Except ScriptError (List Text)) (g : EpcPeriod → List Text)
    (names : List Text) (ps : List EpcPeriod) (hn : names.map parsePeriod = ps.map Except.ok)
    (h : ∀ name p, parsePeriod name = .ok p → f name = .ok (g p)) :
    names.mapM f = .ok (ps.map g) := by
  induction names generalizing ps with
  | nil =>
    cases ps with
    | nil => rfl
    | cons p ps => cases hn
  | cons name names ih =>
    cases ps with
    | nil => cases hn
    | cons p ps =>
      rw [List.map_cons,List.map_cons,List.cons.injEq] at hn
      rw [List.mapM_cons,h name p hn.1,ih ps hn.2]
      rfl

theorem deviceRows_eq (hmac : Hmac) (files : KeyFiles) (keyFilename : Text) (key : List UInt8)
    (hf : files keyFilename = some key) (hk : 64 ≤ key.length) :
    deviceRows hmac files keyFilename =
      .ok (headers :: (List.range 256).map (fun i => namedPeriods.map (cellText hmac key i))) := by
  have hcodes := mapM_named (codesFor hmac files keyFilename)
    (fun p => (List.range 256).map (fun i => cellText hmac key i p)) PERIODS namedPeriods
    PERIODS_named (fun name p hp => codesFor_eq hmac files keyFilename name p key hp hf hk)
  rw [deviceRows,hcodes,PERIODS_headers]
  show Except.ok (headers :: zipColumns _) = _
  rw [namedPeriods,zipColumns_map]

theorem generateLoop_short (hmac : Hmac) (period : EpcPeriod) {key : List UInt8}
    (hk : key.length < 64) (maxCounter : UInt8) :
    generateLoop hmac period key maxCounter 0 [] = ⟨.failed, []⟩ := by
  obtain ⟨e,he,-⟩ := validateKey_short key hk
  have hcode : epcCalculateCode hmac period.value (0 : UInt64).toUInt8 key = .error e := by
    rw [epcCalculateCode,epcPeriodValidate_value,he]
    rfl
  have hle : (0 : UInt64) ≤ maxCounter.toUInt64 := UInt64.le_iff_toNat_le.mpr (Nat.zero_le _)
  rw [generateLoop,if_pos hle,hcode]

theorem deviceRows_key {hmac : Hmac} {files : KeyFiles} {keyFilename : Text} {key : List UInt8}
    {rows : List Row} (hf : files keyFilename = some key)
    (h : deviceRows hmac files keyFilename = .ok rows) : 64 ≤ key.length := by
  by_contra hk
  have hperiod : parsePeriod "1d".toList = .ok .period1Day := by decide
  have hrun : generateMain hmac files keyFilename "1d".toList none = ⟨.failed, []⟩ := by
    unfold generateMain
    rw [hperiod,hf]
    exact generateLoop_short hmac _ (by omega) _
  have hcodes : codesFor hmac files keyFilename "1d".toList =
      .error (.calledProcessError .failed) := by
    rw [codesFor,hrun]
    rfl
  have hrows : deviceRows hmac files keyFilename = .error (.calledProcessError .failed) := by
    rw [deviceRows,PERIODS,List.mapM_cons,hcodes]
    rfl
  rw [hrows] at h
  cases h

def cellAt (rows : List Row) (i j : ℕ) : Option Text := (rows[i+1]?).bind (fun row => row[j]?)

/-- A quote and the eight digits of a code that verifies with the counter and
the period given. -/
def CodeCell (hmac : Hmac) (key : List UInt8) (counter : ℕ) (period : EpcPeriod)
    (cell : Text) : Prop :=
  ∃ digits code, cell = '\''::digits ∧ digits.length = 8 ∧ (∀ c ∈ digits, c.isDigit = true) ∧
    epcParseCode (utf8Bytes digits) = .ok code ∧
    epcVerifyCode hmac code key = .ok (period,UInt8.ofNat counter)

/-- The table of a device: a header, a row for each counter and a column for
each period, the cells strictly increasing down and across. -/
structure DeviceTable (hmac : Hmac) (key : List UInt8) (rows : List Row) : Prop where
  header : rows.head? = some headers
  height : rows.length = 1+256
  width : ∀ row ∈ rows, row.length = PERIODS.length
  cells : ∀ i j name p, i < 256 → PERIODS[j]? = some name → parsePeriod name = .ok p →
    ∃ cell, cellAt rows i j = some cell ∧ CodeCell hmac key i p cell
  down : ∀ i i' j c c', i < i' → cellAt rows i j = some c → cellAt rows i' j = some c' → c < c'
  across : ∀ i j j' c c', j < j' → cellAt rows i j = some c → cellAt rows i j' = some c' → c < c'

theorem cellText_codeCell (hmac : Hmac) (key : List UInt8) (hk : 64 ≤ key.length) (i : ℕ)
    (p : EpcPeriod) : CodeCell hmac key i p (cellText hmac key i p) := by
  refine ⟨_,generated hmac p (UInt8.ofNat i) key,rfl,digitText_length 8 _,
    digitText_isDigit 8 _,?_,?_⟩
  · rw [codeText,utf8Bytes_digitText]
    exact format_parse _ (generated_lt hmac p _ key)
  · exact (epcVerifyCode_ok_iff hmac _ key hk p _).mpr rfl

theorem cellText_lt (hmac : Hmac) (key : List UInt8) (i i' : ℕ) (p p' : EpcPeriod)
    (hi : i < 256) (hi' : i' < 256)
    (h : p.value < p'.value ∨ p.value = p'.value ∧ i < i') :
    cellText hmac key i p < cellText hmac key i' p' := by
  have hc : (UInt8.ofNat i).toNat = i := UInt8.toNat_ofNat_of_lt' hi
  have hc' : (UInt8.ofNat i').toNat = i' := UInt8.toNat_ofNat_of_lt' hi'
  have hg := generated_toNat hmac p (UInt8.ofNat i) key
  have hg' := generated_toNat hmac p' (UInt8.ofNat i') key
  have hs := signatureOf_lt (hmac key [UInt8.ofNat p.value, UInt8.ofNat i])
  have hlt := generated_lt hmac p' (UInt8.ofNat i') key
  rw [hc] at hg
  rw [hc'] at hg'
  apply List.Lex.cons
  apply digitText_lt
  · omega
  · omega

theorem namedPeriods_increasing : namedPeriods.Pairwise (fun p q => p.value < q.value) := by
  decide

theorem cellAt_rows (hmac : Hmac) (key : List UInt8) (i j : ℕ) (cell : Text) :
    cellAt (headers :: (List.range 256).map (fun i => namedPeriods.map (cellText hmac key i)))
        i j = some cell ↔
      i < 256 ∧ ∃ p, namedPeriods[j]? = some p ∧ cellText hmac key i p = cell := by
  rw [cellAt,List.getElem?_cons_succ,List.getElem?_map]
  by_cases hi : i < 256
  · rw [List.getElem?_range hi]
    show (namedPeriods.map (cellText hmac key i))[j]? = some cell ↔ _
    rw [List.getElem?_map,Option.map_eq_some_iff]
    exact (and_iff_right hi).symm
  · rw [List.getElem?_eq_none (by rw [List.length_range]; exact Nat.not_lt.mp hi)]
    exact iff_of_false (Option.some_ne_none _ ∘ Eq.symm) (fun h => hi h.1)

theorem deviceTable_rows (hmac : Hmac) (key : List UInt8) (hk : 64 ≤ key.length) :
    DeviceTable hmac key
      (headers :: (List.range 256).map (fun i => namedPeriods.map (cellText hmac key i))) where
  header := rfl
  height := by rw [List.length_cons,List.length_map,List.length_range,Nat.add_comm]
  width := by
    intro row hrow
    rcases List.mem_cons.mp hrow with rfl | hrow
    · rfl
    · rcases List.mem_map.mp hrow with ⟨i,-,rfl⟩
      exact List.length_map _
  cells := by
    intro i j name p hi hname hp
    have hj : (PERIODS.map parsePeriod)[j]? = some (.ok p) := by
      rw [List.getElem?_map,hname,Option.map_some,hp]
    rw [PERIODS_named,List.getElem?_map,Option.map_eq_some_iff] at hj
    rcases hj with ⟨q,hq,hqp⟩
    cases hqp
    exact ⟨_,(cellAt_rows hmac key i j _).mpr ⟨hi,p,hq,rfl⟩,cellText_codeCell hmac key hk i p⟩
  down := by
    intro i i' j c c' hlt hc hc'
    obtain ⟨hi,p,hp,rfl⟩ := (cellAt_rows hmac key i j c).mp hc
    obtain ⟨hi',p',hp',rfl⟩ := (cellAt_rows hmac key i' j c').mp hc'
    rw [hp] at hp'
    cases hp'
    exact cellText_lt hmac key i i' p p hi hi' (Or.inr ⟨rfl,hlt⟩)
  across := by
    intro i j j' c c' hlt hc hc'
    obtain ⟨hi,p,hp,rfl⟩ := (cellAt_rows hmac key i j c).mp hc
    obtain ⟨-,p',hp',rfl⟩ := (cellAt_rows hmac key i j' c').mp hc'
    obtain ⟨hj,hpj⟩ := List.getElem?_eq_some_iff.mp hp
    obtain ⟨hj',hpj'⟩ := List.getElem?_eq_some_iff.mp hp'
    have hlt' := List.pairwise_iff_getElem.mp namedPeriods_increasing j j' hj hj' hlt
    rw [hpj,hpj'] at hlt'
    exact cellText_lt hmac key i i p p' hi hi (Or.inl hlt')

def AsciiKey (key : Text) : Prop := 64 ≤ key.length ∧ ∀ c ∈ key, c.toNat < 128

def asciiBytes (key : Text) : List UInt8 := key.map (fun c => UInt8.ofNat c.toNat)

theorem utf8Bytes_ascii (key : Text) (h : ∀ c ∈ key, c.toNat < 128) :
    utf8Bytes key = asciiBytes key := by
  induction key with
  | nil => rfl
  | cons c key ih =>
    obtain ⟨hc,hkey⟩ := List.forall_mem_cons.mp h
    have hsize : c.utf8Size = 1 := Char.utf8Size_eq_one_iff.mpr (UInt32.le_iff_toNat_le.mpr (by
      show c.toNat ≤ 127
      omega))
    rw [asciiBytes,List.map_cons,← asciiBytes,← ih hkey,utf8Bytes,List.flatMap_cons,
      String.utf8EncodeChar_eq_singleton hsize]
    rfl

/-- For every map from devices to ASCII keys of at least 64 characters, each
device gets a file of its name, in the order of the map: one header row and 256
rows, in which the cell of a counter and a period is a quote and the digits of a
code that verifies under the key of the device with that counter and period. So
the cells strictly increase down every column and across every row. -/
theorem write_time_codes_cells (hmac : Hmac) (idToKey : IdToKey) (files : KeyFiles)
    (h : ∀ e ∈ idToKey.entries, AsciiKey e.2) :
    ∃ written, writeTimeCodes hmac idToKey.entries files = .ok written ∧
      List.Forall₂ (fun e w => w.1 = csvFilename e.1 ∧ DeviceTable hmac (asciiBytes e.2) w.2)
        idToKey.entries written := by
  generalize idToKey.entries = entries at h ⊢
  induction entries generalizing files with
  | nil => exact ⟨[],rfl,List.Forall₂.nil⟩
  | cons e entries ih =>
    obtain ⟨he,hrest⟩ := List.forall_mem_cons.mp h
    have hk : 64 ≤ (asciiBytes e.2).length := by
      rw [asciiBytes,List.length_map]
      exact he.1
    obtain ⟨written,hw,hall⟩ := ih
      (Function.update files (keyToFilename e.1) (some (utf8Bytes e.2))) hrest
    have hfile : Function.update files (keyToFilename e.1) (some (utf8Bytes e.2))
        (keyToFilename e.1) = some (asciiBytes e.2) := by
      rw [Function.update_self,utf8Bytes_ascii e.2 he.2]
    have hrows := deviceRows_eq hmac _ (keyToFilename e.1) (asciiBytes e.2) hfile hk
    refine ⟨(csvFilename e.1,_)::written,?_,List.Forall₂.cons ⟨rfl,deviceTable_rows hmac _ hk⟩ hall⟩
    rw [writeTimeCodes]
    simp only [hrows,hw]
    rfl

/-- One device with a key of letters. -/
theorem write_time_codes_cells_letters :
    AsciiKey (List.replicate 64 'A') ∧
      ∃ written, writeTimeCodes countingHmac
          (AList.singleton "0123abcd".toList (List.replicate 64 'A') : IdToKey).entries
          (fun _ => none) = .ok written ∧ written.length = 1 := by
  have hkey : AsciiKey (List.replicate 64 'A') := by
    constructor
    · rw [List.length_replicate]
    · intro c hc
      rw [List.eq_of_mem_replicate hc]
      decide
  obtain ⟨written,hw,hall⟩ := write_time_codes_cells countingHmac
    (AList.singleton "0123abcd".toList (List.replicate 64 'A')) (fun _ => none)
    (List.forall_mem_singleton.mpr hkey)
  exact ⟨hkey,written,hw,hall.length_eq.symm⟩

end EosPayg.BulkCodes
