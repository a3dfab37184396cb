import Mathlib.Tactic

/-!
# Machine words and their byte images

Addition that clamps at the largest 64-bit word, the unsigned reading of a
signed word, and the little-endian byte string of a number. Every operation has
one lemma which moves it to the natural numbers, where linear arithmetic decides
the rest.
-/

set_option autoImplicit false

namespace EosPayg.WordArithmetic

def maxWord : UInt64 := 18446744073709551615

@[simp]
theorem maxWord_toNat : maxWord.toNat = 18446744073709551615 := rfl

theorem word_lt (a : UInt64) : a.toNat < 18446744073709551616 := a.toNat_lt

theorem word_ext_iff (a b : UInt64) : a = b ↔ a.toNat = b.toNat := UInt64.toNat_inj.symm

theorem word_ne_iff (a b : UInt64) : a ≠ b ↔ a.toNat ≠ b.toNat :=
  not_congr (word_ext_iff a b)

def checkedAdd (a b : UInt64) : Option UInt64 :=
  if a.toNat + b.toNat < 18446744073709551616 then some (a + b) else none

def saturatingAdd (a b : UInt64) : UInt64 := (checkedAdd a b).getD maxWord

theorem saturatingAdd_toNat (a b : UInt64) :
    (saturatingAdd a b).toNat = min (a.toNat + b.toNat) 18446744073709551615 := by
  unfold saturatingAdd checkedAdd
  split_ifs with h
  · rw [Option.getD_some, UInt64.toNat_add, Nat.mod_eq_of_lt h]
    omega
  · rw [Option.getD_none, maxWord_toNat]
    omega

theorem saturatingAdd_ge (a b : UInt64) : a.toNat ≤ (saturatingAdd a b).toNat := by
  have ha := word_lt a
  rw [saturatingAdd_toNat]
  omega

theorem saturatingAdd_sub (a b : UInt64) :
    (saturatingAdd a b - a).toNat = min b.toNat (18446744073709551615 - a.toNat) := by
  have hs := saturatingAdd_toNat a b
  have ha := word_lt a
  rw [UInt64.toNat_sub_of_le _ _ (UInt64.le_iff_toNat_le.mpr (saturatingAdd_ge a b))]
  omega

theorem toUInt64_toNat (d : Int64) (h : 0 < d) : (d.toUInt64.toNat : ℤ) = d.toInt := by
  have hp : 0 < d.toBitVec.toInt := by simpa using Int64.lt_iff_toInt_lt.mp h
  change (d.toBitVec.toNat : ℤ) = d.toBitVec.toInt
  rw [BitVec.toInt_eq_toNat_cond] at *
  split_ifs at * <;> omega

theorem ofNat_pos (s : ℕ) (hs : s < 2^63) : 0 < Int64.ofNat s ↔ 0 < s := by
  rw [Int64.lt_iff_toInt_lt,Int64.toInt_ofNat_of_lt hs]
  simp

theorem ofNat_toUInt64 (s : ℕ) (hs : s < 2^63) : (Int64.ofNat s).toUInt64.toNat = s := by
  change (BitVec.ofNat 64 s).toNat = s
  rw [BitVec.toNat_ofNat]
  omega

def bytesOf : ℕ → ℕ → List UInt8
  | 0, _ => []
  | n+1, v => UInt8.ofNat (v%256) :: bytesOf n (v/256)

def valueOf : List UInt8 → ℕ
  | [] => 0
  | b::bs => b.toNat+256*valueOf bs

@[simp]
theorem bytesOf_length (n v : ℕ) : (bytesOf n v).length = n := by
  induction n generalizing v with
  | zero => rfl
  | succ n ih => simp [bytesOf,ih]

theorem valueOf_bytesOf (n v : ℕ) (hv : v < 256^n) : valueOf (bytesOf n v) = v := by
  induction n generalizing v with
  | zero => simp_all [bytesOf,valueOf]
  | succ n ih =>
    have hq : v/256 < 256^n := by
      rw [pow_succ] at hv
      omega
    rw [bytesOf,valueOf,ih _ hq,UInt8.toNat_ofNat']
    omega

theorem valueOf_lt (bs : List UInt8) : valueOf bs < 256^bs.length := by
  induction bs with
  | nil => simp [valueOf]
  | cons b bs ih =>
    have hb := b.toNat_lt
    rw [valueOf,List.length_cons,pow_succ]
    omega

theorem bytesOf_valueOf (bs : List UInt8) : bytesOf bs.length (valueOf bs) = bs := by
  induction bs with
  | nil => rfl
  | cons b bs ih =>
    have hb := b.toNat_lt
    have hq : (b.toNat+256*valueOf bs)/256 = valueOf bs := by omega
    have hr : (b.toNat+256*valueOf bs)%256 = b.toNat := by omega
    rw [List.length_cons,valueOf,bytesOf,hq,hr,ih,UInt8.ofNat_toNat]

def wordBytes (w : UInt64) : List UInt8 := bytesOf 8 w.toNat

def wordOfBytes (bs : List UInt8) : UInt64 := UInt64.ofNat (valueOf bs)

@[simp]
theorem wordBytes_length (w : UInt64) : (wordBytes w).length = 8 := bytesOf_length 8 _

@[simp]
theorem wordOfBytes_wordBytes (w : UInt64) : wordOfBytes (wordBytes w) = w := by
  rw [wordOfBytes,wordBytes,valueOf_bytesOf 8 _ w.toNat_lt,UInt64.ofNat_toNat]

theorem wordBytes_wordOfBytes (bs : List UInt8) (h : bs.length = 8) :
    wordBytes (wordOfBytes bs) = bs := by
  have hv : valueOf bs < 2^64 := by simpa [h] using valueOf_lt bs
  rw [wordBytes,wordOfBytes,UInt64.toNat_ofNat',Nat.mod_eq_of_lt hv,← h,bytesOf_valueOf]

end EosPayg.WordArithmetic
