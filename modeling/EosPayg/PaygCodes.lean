import EosPayg.WordArithmetic

/-!
# Codes, their signatures and their decimal strings

The functions of `codes.c`. HMAC-SHA-1 is a parameter: any function from key
and message to twenty bytes. A C string is the list of its bytes before the
terminator, so its length is what `strlen` returns. The host is little-endian,
so the byte of an enumerator that is signed is its low byte.
-/

set_option autoImplicit false

namespace EosPayg.PaygCodes

inductive EpcPeriod where
  | period5Seconds | period1Minute | period5Minutes | period1Hour | period1Day
  | period2Days | period3Days | period4Days | period5Days | period6Days
  | period7Days | period8Days | period9Days | period10Days | period11Days
  | period12Days | period13Days | period14Days | period30Days | period60Days
  | period90Days | period120Days | period365Days | period30Minutes
  | period8Hours | period31Days | infinite
  deriving DecidableEq, Repr

def EpcPeriod.value : EpcPeriod → ℕ
  | .period5Seconds => 0 | .period1Minute => 1 | .period5Minutes => 2
  | .period1Hour => 3 | .period1Day => 4 | .period2Days => 5 | .period3Days => 6
  | .period4Days => 7 | .period5Days => 8 | .period6Days => 9 | .period7Days => 10
  | .period8Days => 11 | .period9Days => 12 | .period10Days => 13
  | .period11Days => 14 | .period12Days => 15 | .period13Days => 16
  | .period14Days => 17 | .period30Days => 18 | .period60Days => 19
  | .period90Days => 20 | .period120Days => 21 | .period365Days => 22
  | .period30Minutes => 23 | .period8Hours => 24 | .period31Days => 25
  | .infinite => 31

def EpcPeriod.all : List EpcPeriod :=
  [.period5Seconds, .period1Minute, .period5Minutes, .period30Minutes, .period1Hour,
    .period8Hours, .period1Day, .period2Days, .period3Days, .period4Days, .period5Days,
    .period6Days, .period7Days, .period8Days, .period9Days, .period10Days, .period11Days,
    .period12Days, .period13Days, .period14Days, .period30Days, .period31Days,
    .period60Days, .period90Days, .period120Days, .period365Days, .infinite]

theorem EpcPeriod.mem_all (p : EpcPeriod) : p ∈ EpcPeriod.all := by
  cases p <;> decide

theorem EpcPeriod.value_lt (p : EpcPeriod) : p.value < 32 := by
  cases p <;> decide

theorem EpcPeriod.value_injective : Function.Injective EpcPeriod.value := by
  have h : ∀ p ∈ EpcPeriod.all, ∀ q ∈ EpcPeriod.all, p.value = q.value → p = q := by decide
  intro p q hv
  exact h p p.mem_all q q.mem_all hv

inductive EpcCodeError where
  | invalidPeriod | invalidKey | invalidCode | invalidSignature
  deriving DecidableEq, Repr

structure CodeError where
  code : EpcCodeError
  message : String
  deriving DecidableEq, Repr

def decimalDigits : ℕ → ℕ → List UInt8
  | 0, _ => []
  | k+1, n => decimalDigits k (n/10) ++ [UInt8.ofNat (48+n%10)]

/-- The conversion `%08u` of a 32-bit value. -/
def formatWidth8 (n : ℕ) : List UInt8 :=
  decimalDigits (if n < 100000000 then 8 else if n < 1000000000 then 9 else 10) n

def asciiText (bs : List UInt8) : String :=
  String.ofList (bs.map (fun b => Char.ofNat b.toNat))

def epcPeriodValidate (period : ℕ) : Except CodeError EpcPeriod :=
  match EpcPeriod.all.find? (fun p => p.value = period) with
  | some p => .ok p
  | none => .error ⟨.invalidPeriod, "Unknown period " ++ toString period ++ "."⟩

theorem epcPeriodValidate_value (p : EpcPeriod) : epcPeriodValidate p.value = .ok p := by
  cases p <;> rfl

theorem epcPeriodValidate_ok {n : ℕ} {p : EpcPeriod} (h : epcPeriodValidate n = .ok p) :
    p.value = n := by
  unfold epcPeriodValidate at h
  split at h
  · next q hq =>
    cases h
    simpa using List.find?_some hq
  · cases h

def keyLengthBytesMinimum : ℕ := 64

def validateKey (key : List UInt8) : Except CodeError Unit :=
  if key.length < keyLengthBytesMinimum then
    .error ⟨.invalidKey, "Key is too short (" ++ toString (key.length%4294967296) ++
      " bytes); minimum length " ++ toString keyLengthBytesMinimum ++ " bytes."⟩
  else .ok ()

def epcCodeValidate (code : UInt32) : Except CodeError Unit :=
  if code >>> 26 = 0 ∧ code.toNat < 10^8 then .ok ()
  else .error ⟨.invalidCode, "Invalid code " ++ asciiText (formatWidth8 code.toNat) ++ "."⟩

def periodMask : UInt32 := ((1 : UInt32) <<< 5)-1

def counterMask : UInt32 := ((1 : UInt32) <<< 8)-1

def signMask : UInt16 := ((1 : UInt16) <<< 13)-1

abbrev Hmac := List UInt8 → List UInt8 → Fin 20 → UInt8

def signResult (mac : Fin 20 → UInt8) : UInt16 :=
  (((mac 18).toUInt16 <<< 8) ||| (mac 19).toUInt16) &&& signMask

def codeValue (period : EpcPeriod) (counter : UInt8) (sign : UInt16) : UInt32 :=
  (UInt32.ofNat period.value <<< 21) ||| (counter.toUInt32 <<< 13) ||| sign.toUInt32

def epcCalculateCode (hmac : Hmac) (period : ℕ) (counter : UInt8) (key : List UInt8) :
    Except CodeError UInt32 := do
  let p ← epcPeriodValidate period
  validateKey key
  return codeValue p counter (signResult (hmac key [UInt8.ofNat p.value, counter]))

def epcFormatCode (code : UInt32) : List UInt8 := formatWidth8 code.toNat

/-- The enumerator behind the period bits is looked up once more by
`epc_calculate_code`; here it is also the value written to `period_out`. -/
def epcVerifyCode (hmac : Hmac) (code : UInt32) (key : List UInt8) :
    Except CodeError (EpcPeriod × UInt8) := do
  epcCodeValidate code
  validateKey key
  let period := ((code >>> 21) &&& periodMask).toNat
  let counter := ((code >>> 13) &&& counterMask).toUInt8
  let p ← epcPeriodValidate period
  let checkCode ← epcCalculateCode hmac period counter key
  if checkCode = code then return (p, counter)
  else throw ⟨.invalidSignature,
    "Invalid signature on code " ++ asciiText (epcFormatCode code) ++ "."⟩

def isDigit (b : UInt8) : Bool := 48 ≤ b && b ≤ 57

def decimalValue (s : List UInt8) : ℕ := s.foldl (fun n b => 10*n+(b.toNat-48)) 0

/-- Base ten: no blank, sign or other byte is accepted anywhere, and a number
past the 64-bit range or the given bounds is refused. -/
def gAsciiStringToUnsigned (s : List UInt8) (lower upper : ℕ) : Option ℕ :=
  if s ≠ [] ∧ s.all isDigit ∧ decimalValue s < 2^64 ∧
      lower ≤ decimalValue s ∧ decimalValue s ≤ upper then some (decimalValue s)
  else none

def wrongLength : CodeError := ⟨.invalidCode, "Codes must be 8 digits long."⟩

def epcParseCode (codeStr : List UInt8) : Except CodeError UInt32 :=
  if codeStr.length ≠ 8 then .error wrongLength
  else match gAsciiStringToUnsigned codeStr 0 (2^26-1) with
    | none => .error wrongLength
    | some v => do
      epcCodeValidate (UInt32.ofNat v)
      return UInt32.ofNat v

/-- A code string the grammar admits: eight ASCII digits below `2^26`. -/
def ValidCodeString (s : List UInt8) : Prop :=
  s.length = 8 ∧ s.all isDigit = true ∧ decimalValue s < 2^26

instance (s : List UInt8) : Decidable (ValidCodeString s) :=
  inferInstanceAs (Decidable (_ ∧ _ ∧ _))

theorem epcCodeValidate_ofNat (v : ℕ) (hv : v < 2^26) :
    epcCodeValidate (UInt32.ofNat v) = .ok () := by
  have hn : (UInt32.ofNat v).toNat = v := by
    rw [UInt32.toNat_ofNat']
    omega
  have hs : UInt32.ofNat v >>> 26 = 0 := by
    apply UInt32.toNat_inj.mp
    rw [UInt32.toNat_shiftRight,hn]
    simp only [Nat.shiftRight_eq_div_pow]
    exact Nat.div_eq_of_lt hv
  rw [epcCodeValidate,if_pos ⟨hs,by omega⟩]

/-- The parser accepts exactly the grammar, and returns the decimal value. -/
theorem epcParseCode_ok_iff (s : List UInt8) (code : UInt32) :
    epcParseCode s = .ok code ↔ ValidCodeString s ∧ code = UInt32.ofNat (decimalValue s) := by
  by_cases hl : s.length = 8
  · by_cases hd : s.all isDigit = true ∧ decimalValue s < 2^26
    · have hne : s ≠ [] := by
        rintro rfl
        simp at hl
      have hg : gAsciiStringToUnsigned s 0 (2^26-1) = some (decimalValue s) := by
        rw [gAsciiStringToUnsigned,if_pos ⟨hne,hd.1,by omega,by omega,by omega⟩]
      have hc := epcCodeValidate_ofNat _ hd.2
      simp only [epcParseCode,hl,hg,hc,ValidCodeString,hd]
      constructor
      · rintro ⟨⟩
        exact ⟨⟨trivial,trivial,trivial⟩,rfl⟩
      · rintro ⟨-,rfl⟩
        rfl
    · have hg : gAsciiStringToUnsigned s 0 (2^26-1) = none := by
        rw [gAsciiStringToUnsigned,if_neg]
        rintro ⟨-,ha,-,-,hb⟩
        exact hd ⟨ha,by omega⟩
      simp only [epcParseCode,hl,hg,ValidCodeString]
      constructor
      · rintro ⟨⟩
      · rintro ⟨⟨-,ha,hb⟩,-⟩
        exact absurd ⟨ha,hb⟩ hd
  · simp [epcParseCode,hl,ValidCodeString]

end EosPayg.PaygCodes
