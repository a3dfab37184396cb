import EosPayg.CodeAcceptance

/-!
# Formatting and parsing are inverse

A code is shown as a numeral of eight digits with its leading zeros, and typed
back in the same form. The numerals of a fixed width are exactly the strings of
that many digits, one for each value they have room for, so the parser, which
looks at the length, at every byte and at the range, accepts what the formatter
writes and nothing else.
-/

set_option autoImplicit false

namespace EosPayg.CodeStrings
open EosPayg.PaygCodes EosPayg.CodeAcceptance

theorem digit_toNat (n : ℕ) : (UInt8.ofNat (48+n%10)).toNat = 48+n%10 := by
  rw [UInt8.toNat_ofNat']
  omega

theorem isDigit_iff (b : UInt8) : isDigit b = true ↔ 48 ≤ b.toNat ∧ b.toNat ≤ 57 := by
  rw [isDigit,Bool.and_eq_true,decide_eq_true_iff,decide_eq_true_iff]
  exact Iff.rfl

theorem digit_isDigit (n : ℕ) : isDigit (UInt8.ofNat (48+n%10)) = true := by
  rw [isDigit_iff,digit_toNat]
  omega

theorem decimalDigits_length (k n : ℕ) : (decimalDigits k n).length = k := by
  induction k generalizing n with
  | zero => rfl
  | succ k ih =>
    rw [decimalDigits,List.length_append,ih]
    rfl

theorem decimalDigits_isDigit (k n : ℕ) : (decimalDigits k n).all isDigit = true := by
  induction k generalizing n with
  | zero => rfl
  | succ k ih =>
    rw [decimalDigits,List.all_append,ih,List.all_cons,digit_isDigit]
    rfl

theorem decimalValue_concat (s : List UInt8) (b : UInt8) :
    decimalValue (s++[b]) = 10*decimalValue s+(b.toNat-48) := by
  rw [decimalValue,List.foldl_append]
  rfl

theorem decimalValue_decimalDigits (k n : ℕ) : decimalValue (decimalDigits k n) = n%10^k := by
  induction k generalizing n with
  | zero =>
    rw [pow_zero,Nat.mod_one]
    rfl
  | succ k ih =>
    rw [decimalDigits,decimalValue_concat,ih,digit_toNat,pow_succ,Nat.mul_comm (10^k),
      Nat.mod_mul]
    omega

theorem decimalDigits_decimalValue (s : List UInt8) (h : s.all isDigit = true) :
    decimalDigits s.length (decimalValue s) = s := by
  induction s using List.reverseRecOn with
  | nil => rfl
  | append_singleton s b ih =>
    rw [List.all_append,Bool.and_eq_true] at h
    have hb := (isDigit_iff b).mp (by simpa using h.2)
    have hdiv : (10*decimalValue s+(b.toNat-48))/10 = decimalValue s := by omega
    have hmod : 48+(10*decimalValue s+(b.toNat-48))%10 = b.toNat := by omega
    rw [List.length_append,decimalValue_concat]
    show decimalDigits s.length _++[UInt8.ofNat _] = _
    rw [hdiv,hmod,ih h.1,UInt8.ofNat_toNat]

def digitText : ℕ → ℕ → List Char
  | 0, _ => []
  | k+1, n => digitText k (n/10) ++ [Nat.digitChar (n%10)]

def utf8Bytes (t : List Char) : List UInt8 := t.flatMap String.utf8EncodeChar

def decodeUtf8 (bs : List UInt8) : Option (List Char) :=
  bs.toByteArray.utf8Decode?.map Array.toList

theorem decodeUtf8_utf8Bytes (t : List Char) : decodeUtf8 (utf8Bytes t) = some t := by
  have h : (utf8Bytes t).toByteArray = t.utf8Encode := rfl
  rw [decodeUtf8,h,List.utf8Decode?_utf8Encode]
  rfl

theorem utf8Bytes_append (t u : List Char) : utf8Bytes (t++u) = utf8Bytes t++utf8Bytes u :=
  List.flatMap_append

theorem utf8Bytes_digit (d : ℕ) (h : d < 10) :
    utf8Bytes [Nat.digitChar d] = [UInt8.ofNat (48+d)] := by
  have hall : ∀ d < 10, utf8Bytes [Nat.digitChar d] = [UInt8.ofNat (48+d)] := by decide
  exact hall d h

theorem utf8Bytes_digitText (k n : ℕ) : utf8Bytes (digitText k n) = decimalDigits k n := by
  induction k generalizing n with
  | zero => rfl
  | succ k ih =>
    rw [digitText,utf8Bytes_append,ih,utf8Bytes_digit _ (Nat.mod_lt _ (by decide)),decimalDigits]

theorem digitText_length (k n : ℕ) : (digitText k n).length = k := by
  induction k generalizing n with
  | zero => rfl
  | succ k ih =>
    rw [digitText,List.length_append,ih]
    rfl

theorem digitText_isDigit (k n : ℕ) : ∀ c ∈ digitText k n, c.isDigit = true := by
  have hdigit : ∀ d < 10, (Nat.digitChar d).isDigit = true := by decide
  induction k generalizing n with
  | zero => exact List.forall_mem_nil _
  | succ k ih =>
    intro c hc
    rw [digitText,List.mem_append,List.mem_singleton] at hc
    rcases hc with hc | rfl
    · exact ih _ c hc
    · exact hdigit _ (Nat.mod_lt _ (by decide))

theorem digitText_toDigits (k n : ℕ) (hk : 0 < k) (h : n < 10^k) :
    digitText k n = List.replicate (k-(Nat.toDigits 10 n).length) '0'++Nat.toDigits 10 n := by
  induction k generalizing n with
  | zero => exact absurd hk (lt_irrefl 0)
  | succ k ih =>
    rw [digitText,Nat.toDigits_eq_if (by decide)]
    rcases Nat.eq_zero_or_pos k with rfl | hpos
    · have hn : n < 10 := by simpa using h
      rw [if_pos hn,Nat.mod_eq_of_lt hn]
      rfl
    · have hdiv : n/10 < 10^k := by
        rw [Nat.div_lt_iff_lt_mul (by decide)]
        rwa [pow_succ] at h
      rw [ih _ hpos hdiv]
      by_cases hn : n < 10
      · have hz : n/10 = 0 := Nat.div_eq_of_lt hn
        rw [if_pos hn,hz,Nat.mod_eq_of_lt hn,Nat.toDigits_zero]
        show List.replicate (k-1) '0'++['0']++[Nat.digitChar n] = _
        rw [← List.replicate_succ',Nat.sub_add_cancel hpos]
        rfl
      · rw [if_neg hn,← List.append_assoc,List.length_append]
        show _ = List.replicate (k+1-(_+1)) '0'++_++_
        rw [Nat.add_sub_add_right]

theorem append_lt_append {l m : List Char} (h : l < m) (hl : l.length = m.length)
    (x y : List Char) : l++x < m++y := by
  induction h with
  | nil => cases hl
  | rel hab => exact List.Lex.rel hab
  | cons _ ih => exact List.Lex.cons (ih (Nat.succ.inj hl))

theorem digitText_lt (k m n : ℕ) (h : m < n) (hn : n < 10^k) : digitText k m < digitText k n := by
  have hdigit : ∀ b < 10, ∀ a < b, Nat.digitChar a < Nat.digitChar b := by decide
  induction k generalizing m n with
  | zero => omega
  | succ k ih =>
    rw [digitText,digitText]
    rcases Nat.lt_or_ge (m/10) (n/10) with hlt | hge
    · have hdiv : n/10 < 10^k := by
        rw [Nat.div_lt_iff_lt_mul (by decide)]
        rwa [pow_succ] at hn
      apply append_lt_append (ih _ _ hlt hdiv)
      rw [digitText_length,digitText_length]
    · have heq : m/10 = n/10 := by omega
      rw [heq]
      apply List.append_left_lt
      exact List.Lex.rel (hdigit _ (Nat.mod_lt _ (by decide)) _ (by omega))

def epcFormatCodeChecked (code : UInt32) : Option (List UInt8) :=
  match epcCodeValidate code with
  | .ok () => some (epcFormatCode code)
  | .error _ => none

/-- The whole string is eight digits. The `$` of the format `^[0-9]{8}$` may
also stand before a newline at the end, but such a string is one byte longer. -/
def CodeFormat (s : List UInt8) : Prop := s.length = 8 ∧ s.all isDigit = true

theorem epcFormatCode_eq (code : UInt32) (h : code.toNat < 2^26) :
    epcFormatCode code = decimalDigits 8 code.toNat := by
  rw [epcFormatCode,formatWidth8,if_pos (by omega)]

theorem epcFormatCodeChecked_eq (code : UInt32) (h : code.toNat < 2^26) :
    epcFormatCodeChecked code = some (decimalDigits 8 code.toNat) := by
  rw [epcFormatCodeChecked,epcCodeValidate_of_lt code h,← epcFormatCode_eq code h]

theorem format_parse (code : UInt32) (h : code.toNat < 2^26) :
    epcParseCode (decimalDigits 8 code.toNat) = .ok code := by
  have hv : decimalValue (decimalDigits 8 code.toNat) = code.toNat := by
    rw [decimalValue_decimalDigits]
    exact Nat.mod_eq_of_lt (by omega)
  apply (epcParseCode_ok_iff _ _).mpr
  rw [hv,UInt32.ofNat_toNat]
  exact ⟨⟨decimalDigits_length 8 _,decimalDigits_isDigit 8 _,by rwa [hv]⟩,rfl⟩

theorem parse_format (s : List UInt8) (code : UInt32) (h : epcParseCode s = .ok code) :
    code.toNat = decimalValue s ∧ epcFormatCodeChecked code = some s := by
  rcases (epcParseCode_ok_iff s code).mp h with ⟨⟨hlen,hdigits,hlt⟩,rfl⟩
  have hcode : (UInt32.ofNat (decimalValue s)).toNat = decimalValue s := by
    rw [UInt32.toNat_ofNat']
    exact Nat.mod_eq_of_lt (by omega)
  have hs := decimalDigits_decimalValue s hdigits
  rw [hlen] at hs
  rw [epcFormatCodeChecked_eq _ (by rwa [hcode]),hcode,hs]
  exact ⟨rfl,rfl⟩

theorem epcCodeValidate_error {code : UInt32} {e : CodeError}
    (h : epcCodeValidate code = .error e) : e.code = .invalidCode := by
  unfold epcCodeValidate at h
  split_ifs at h
  cases h
  rfl

theorem epcParseCode_error {s : List UInt8} {e : CodeError} (h : epcParseCode s = .error e) :
    e.code = .invalidCode := by
  unfold epcParseCode at h
  split_ifs at h with hlen
  · cases h
    rfl
  · split at h
    · cases h
      rfl
    · next v hv =>
      cases hc : epcCodeValidate (UInt32.ofNat v) with
      | error d =>
        rw [hc] at h
        cases h
        exact epcCodeValidate_error hc
      | ok u =>
        rw [hc] at h
        cases h

theorem epcParseCode_refused (s : List UInt8) (h : ¬ValidCodeString s) :
    ∃ e, epcParseCode s = .error e ∧ e.code = .invalidCode := by
  cases hp : epcParseCode s with
  | error e => exact ⟨e,rfl,epcParseCode_error hp⟩
  | ok code => exact absurd ((epcParseCode_ok_iff s code).mp hp).1 h

/-- Every code below `2^26` is written with eight digits which parse back to it.
The parser accepts exactly the strings of eight digits with a value below
`2^26`, formatting its result gives the string again, and every string which
does not have the format is refused as an invalid code. -/
theorem code_strings_inverse :
    (∀ code : UInt32, code.toNat < 2^26 → ∃ s, epcFormatCodeChecked code = some s ∧
      s.length = 8 ∧ epcParseCode s = .ok code) ∧
    (∀ s, (∃ code, epcParseCode s = .ok code) ↔
      s.length = 8 ∧ s.all isDigit = true ∧ decimalValue s < 2^26) ∧
    (∀ s code, epcParseCode s = .ok code →
      code.toNat = decimalValue s ∧ epcFormatCodeChecked code = some s) ∧
    ∀ s, ¬CodeFormat s → ∃ e, epcParseCode s = .error e ∧ e.code = .invalidCode := by
  refine ⟨?_,?_,parse_format,?_⟩
  · intro code h
    exact ⟨_,epcFormatCodeChecked_eq code h,decimalDigits_length 8 _,format_parse code h⟩
  · intro s
    constructor
    · rintro ⟨code,h⟩
      exact ((epcParseCode_ok_iff s code).mp h).1
    · intro h
      exact ⟨_,(epcParseCode_ok_iff s _).mpr ⟨h,rfl⟩⟩
  · intro s h
    exact epcParseCode_refused s (fun hv => h ⟨hv.1,hv.2.1⟩)

/-- The code one keeps its seven leading zeros. -/
theorem code_strings_inverse_one :
    epcFormatCodeChecked 1 = some [48,48,48,48,48,48,48,49] ∧
      epcParseCode [48,48,48,48,48,48,48,49] = .ok 1 :=
  ⟨(code_strings_inverse.2.2.1 [48,48,48,48,48,48,48,49] 1 (by decide)).2,by decide⟩

end EosPayg.CodeStrings
