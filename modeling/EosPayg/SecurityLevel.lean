import EosPayg.GuardedRun
import EosPayg.EfiVariables

/-!
# The security level over a sequence of boots

Each boot runs a daemon with its own compiled-in level against the one byte
that earlier daemons left. The byte is compared as a signed character, so a
stored level in the upper half is taken for a negative one.
-/

set_option autoImplicit false

namespace EosPayg.SecurityLevel
open EosPayg.EfiVariables EosPayg.GuardedRun

/-- A plain character promoted to an integer, where it is signed. -/
def charToInt (c : UInt8) : ℤ := c.toInt8.toInt

def testAndUpdateSecuritylevel {σ : Type} (efi : EfiOps σ) (epgSecurityLevel : UInt8)
    (e : Efi σ) (kread koverwrite : Answers) : Efi σ × Bool :=
  match (varRead efi e (cString "securitylevel") 1 kread).content with
  | .error _ => (e, false)
  | .ok level =>
    let level0 := charToInt (level.headD 0)
    if (epgSecurityLevel.toNat : ℤ) < level0 then (e, false)
    else if level0 < (epgSecurityLevel.toNat : ℤ) then
      -- A failing overwrite is left for the next boot.
      ((varOverwrite efi e (cString "securitylevel") (level.set 0 epgSecurityLevel) koverwrite).1,
        true)
    else (e, true)

structure Boot where
  epgSecurityLevel : UInt8
  read : Answers
  overwrite : Answers

def securitylevelName : Name := eospaygEfiName (cString "securitylevel")

def stored (s : EfiVarFs) : Option UInt8 :=
  match s.files.lookup securitylevelName with
  | some [_, _, _, _, byte] => some byte
  | _ => none

/-- A boot is a new process, before the root pivot. -/
def boot (s : EfiVarFs) (b : Boot) : Efi EfiVarFs × Bool :=
  testAndUpdateSecuritylevel efivarfsOps b.epgSecurityLevel ⟨s, false⟩ b.read b.overwrite

/-- A failing overwrite is without effect: it is not cut short. -/
def Whole (k : Answers) : Prop :=
  match k.write with
  | .ok limit => 5 ≤ limit
  | .error _ => True

instance (k : Answers) : Decidable (Whole k) := by
  unfold Whole
  split <;> infer_instance

def step (s : EfiVarFs) (b : Boot) : Option EfiVarFs :=
  if Whole b.overwrite then some (boot s b).1.store else none

structure Readable (length : ℕ) (k : Answers) : Prop where
  openat : k.openat = none
  readAttributes : ∃ limit, k.readAttributes = .ok limit ∧ 4 ≤ limit
  fstat : k.fstat = none
  readContents : ∃ limit, k.readContents = .ok limit ∧ length ≤ limit

/-- The stored byte does not decrease, and a daemon below it is told so. -/
def Secure (s : EfiVarFs) (b : Boot) : Prop :=
  ∀ old, stored s = some old →
    (∃ new, stored (boot s b).1.store = some new ∧ old ≤ new) ∧
    (b.epgSecurityLevel < old → (boot s b).2 = false)

/-- The level is not read, or is in the lower half, or the daemon reaches it. -/
def Upright (s : EfiVarFs) (b : Boot) : Prop :=
  ∀ old, stored s = some old → Readable 1 b.read → old < 128 ∨ old ≤ b.epgSecurityLevel

theorem charToInt_eq (c : UInt8) :
    charToInt c = if 2*c.toNat < 256 then (c.toNat : ℤ) else (c.toNat : ℤ)-256 :=
  BitVec.toInt_eq_toNat_cond c.toBitVec

theorem charToInt_lower (c : UInt8) (h : c < 128) : charToInt c = c.toNat := by
  have hn := UInt8.lt_iff_toNat_lt.mp h
  have h128 : (128 : UInt8).toNat = 128 := rfl
  rw [charToInt_eq,if_pos (by omega)]

theorem charToInt_upper (c : UInt8) (h : ¬ c < 128) : charToInt c < 0 := by
  have hn := UInt8.le_iff_toNat_le.mp (UInt8.not_lt.mp h)
  have h128 : (128 : UInt8).toNat = 128 := rfl
  have hlt := UInt8.toNat_lt c
  rw [charToInt_eq,if_neg (by omega)]
  omega

theorem stored_eq_some (s : EfiVarFs) (byte : UInt8) (h : stored s = some byte) :
    ∃ a b c d, s.files.lookup securitylevelName = some [a, b, c, d, byte] := by
  unfold stored at h
  split at h
  · rename_i a b c d byte' hl
    cases h
    exact ⟨a,b,c,d,hl⟩
  · cases h

theorem efivarfsRead_ok (s : EfiVarFs) (name : Name) (k : Answers) (data : Bytes)
    (h : (efivarfsRead s name k).content = .ok data) :
    ∃ file, s.files.lookup name = some file ∧ Readable (file.length-4) k ∧ data = file.drop 4 := by
  revert h
  fun_cases efivarfsRead s name k with
  | case9 file ho hl attributes ha ret hret hf h5 contents hc fsize ret' hret' =>
    intro h
    cases h
    refine ⟨file,ho,⟨hl,⟨attributes,ha,?_⟩,hf,contents,hc,?_⟩,rfl⟩
    · omega
    · omega
  | _ =>
    intro h
    cases h

theorem efivarfsRead_readable (s : EfiVarFs) (name : Name) (k : Answers) (file : Bytes)
    (hl : s.files.lookup name = some file) (h5 : 5 ≤ file.length)
    (hk : Readable (file.length-4) k) :
    efivarfsRead s name k = ⟨.ok (file.drop 4), (file.length-4 : ℕ)⟩ := by
  obtain ⟨ho,⟨attributes,ha,h4⟩,hf,contents,hc,hle⟩ := hk
  have hret : min attributes (min 4 file.length) = 4 := by omega
  have hret' : min contents (file.length-4) = file.length-4 := by omega
  have hn5 : ¬ file.length < 5 := by omega
  simp only [efivarfsRead,ho,hl,ha,hf,hc,hret,hret',hn5,ne_eq,not_true_eq_false,if_false]

theorem varReadFullname_ok {σ : Type} (efi : EfiOps σ) (e : Efi σ) (name : Name)
    (expectedSize : ℤ) (k : Answers) (data : Bytes)
    (h : (varReadFullname efi e name expectedSize k).content = .ok data) :
    (efi.read e.store name k).content = .ok data := by
  unfold varReadFullname at h
  split_ifs at h
  cases hr : (efi.read e.store name k).content with
  | error err =>
    simp only [hr] at h
    cases h
  | ok c =>
    simp only [hr] at h
    split_ifs at h
    exact hr.symm.trans h

theorem varRead_stored (s : EfiVarFs) (byte : UInt8) (k : Answers) (h : stored s = some byte) :
    (Readable 1 k ∧ (varRead efivarfsOps ⟨s, false⟩ (cString "securitylevel") 1 k).content =
      .ok [byte]) ∨
    (¬ Readable 1 k ∧ ∃ err, (varRead efivarfsOps ⟨s, false⟩ (cString "securitylevel") 1 k).content =
      .error err) := by
  obtain ⟨a,b,c,d,hl⟩ := stored_eq_some s byte h
  by_cases hk : Readable 1 k
  · have hr := efivarfsRead_readable s securitylevelName k _ hl (le_refl 5) hk
    refine .inl ⟨hk,?_⟩
    show (varReadFullname efivarfsOps ⟨s, false⟩ securitylevelName 1 k).content = _
    simp only [varReadFullname,efivarfsOps,hr]
    rfl
  · refine .inr ⟨hk,?_⟩
    cases hr : (varRead efivarfsOps ⟨s, false⟩ (cString "securitylevel") 1 k).content with
    | error err => exact ⟨err,rfl⟩
    | ok data =>
      have he := varReadFullname_ok efivarfsOps ⟨s, false⟩ securitylevelName 1 k data hr
      obtain ⟨file,hf,hread,-⟩ := efivarfsRead_ok s securitylevelName k data he
      rw [hl] at hf
      cases hf
      exact absurd hread hk

theorem boot_unreadable (s : EfiVarFs) (b : Boot) (old : UInt8) (h : stored s = some old)
    (hk : ¬ Readable 1 b.read) : boot s b = (⟨s, false⟩, false) := by
  rcases varRead_stored s old b.read h with ⟨hr,-⟩ | ⟨-,err,hr⟩
  · exact absurd hr hk
  · simp only [boot,testAndUpdateSecuritylevel,hr]

theorem boot_readable (s : EfiVarFs) (b : Boot) (old : UInt8) (h : stored s = some old)
    (hk : Readable 1 b.read) :
    boot s b =
      if (b.epgSecurityLevel.toNat : ℤ) < charToInt old then (⟨s, false⟩, false)
      else if charToInt old < (b.epgSecurityLevel.toNat : ℤ) then
        ((varOverwrite efivarfsOps ⟨s, false⟩ (cString "securitylevel") [b.epgSecurityLevel]
          b.overwrite).1, true)
      else (⟨s, false⟩, true) := by
  rcases varRead_stored s old b.read h with ⟨-,hr⟩ | ⟨hn,-⟩
  · simp only [boot,testAndUpdateSecuritylevel,hr,List.headD_cons,List.set_cons_zero]
    rfl
  · exact absurd hk hn

theorem overwrite_stored (s : EfiVarFs) (old level : UInt8) (k : Answers)
    (h : stored s = some old) (hw : Whole k) :
    stored (varOverwrite efivarfsOps ⟨s, false⟩ (cString "securitylevel") [level] k).1.store =
      some old ∨
    stored (varOverwrite efivarfsOps ⟨s, false⟩ (cString "securitylevel") [level] k).1.store =
      some level := by
  obtain ⟨a,b,c,d,hl⟩ := stored_eq_some s old h
  have hm : securitylevelName ∈ s.files := by
    rw [← AList.lookup_isSome,hl]
    rfl
  show stored (efivarfsWrite s securitylevelName [level] true k).1 = _ ∨
    stored (efivarfsWrite s securitylevelName [level] true k).1 = _
  unfold efivarfsWrite openCreate
  cases k.openat with
  | some errno => exact .inl h
  | none =>
    simp only [if_pos hm]
    cases hk : k.write with
    | error errno => exact .inl h
    | ok limit =>
      have h5 : 5 ≤ limit := by simpa only [Whole,hk] using hw
      have hmin : min limit (attr++[level]).length = (attr++[level]).length :=
        Nat.min_eq_right h5
      refine .inr ?_
      show stored { s with files := s.files.insert securitylevelName _ } = _
      rw [hmin,List.take_length]
      simp only [stored,AList.lookup_insert]
      rfl

theorem boot_stored (s : EfiVarFs) (b : Boot) (old : UInt8) (h : stored s = some old)
    (hw : Whole b.overwrite) :
    stored (boot s b).1.store = some old ∨
    Readable 1 b.read ∧ charToInt old < (b.epgSecurityLevel.toNat : ℤ) ∧
      stored (boot s b).1.store = some b.epgSecurityLevel := by
  by_cases hk : Readable 1 b.read
  · rw [boot_readable s b old h hk]
    split_ifs with hlt hgt
    · exact .inl h
    · rcases overwrite_stored s old b.epgSecurityLevel b.overwrite h hw with ho | ho
      · exact .inl ho
      · exact .inr ⟨hk,hgt,ho⟩
    · exact .inl h
  · rw [boot_unreadable s b old h hk]
    exact .inl h

/-- A daemon below the stored byte is told so exactly when the condition holds. -/
theorem boot_refused_iff (s : EfiVarFs) (b : Boot) (old : UInt8) (h : stored s = some old)
    (hlt : b.epgSecurityLevel < old) :
    (boot s b).2 = false ↔ ¬ Readable 1 b.read ∨ old < 128 := by
  have hn := UInt8.lt_iff_toNat_lt.mp hlt
  by_cases hk : Readable 1 b.read
  · rw [boot_readable s b old h hk]
    by_cases hlow : old < 128
    · rw [charToInt_lower old hlow,if_pos (by omega)]
      exact iff_of_true rfl (.inr hlow)
    · have hneg := charToInt_upper old hlow
      rw [if_neg (by omega),if_pos (by omega)]
      constructor
      · intro hc
        cases hc
      · intro hc
        exact absurd hc (not_or.mpr ⟨not_not.mpr hk,hlow⟩)
  · rw [boot_unreadable s b old h hk]
    exact iff_of_true rfl (.inl hk)

theorem boot_secure_iff (s : EfiVarFs) (b : Boot) (hw : Whole b.overwrite) :
    Secure s b ↔ Upright s b := by
  constructor
  · intro hs old h hk
    by_cases hlt : b.epgSecurityLevel < old
    · have hrefused := (boot_refused_iff s b old h hlt).mp ((hs old h).2 hlt)
      exact .inl (hrefused.resolve_left (not_not.mpr hk))
    · exact .inr (UInt8.not_lt.mp hlt)
  · intro hu old h
    refine ⟨?_,fun hlt => ?_⟩
    · rcases boot_stored s b old h hw with ho | ⟨hk,hgt,ho⟩
      · exact ⟨old,ho,UInt8.le_refl old⟩
      · refine ⟨b.epgSecurityLevel,ho,?_⟩
        rcases hu old h hk with hlow | hle
        · rw [charToInt_lower old hlow] at hgt
          exact UInt8.le_iff_toNat_le.mpr (by omega)
        · exact hle
    · rw [boot_refused_iff s b old h hlt]
      by_cases hk : Readable 1 b.read
      · exact .inr ((hu old h hk).resolve_right (UInt8.not_le.mpr hlt))
      · exact .inl hk

/-- Over any sequence of boots the stored byte never decreases, and every daemon
below it is told so, if and only if at each boot that can read the level it is
in the lower half or not above the daemon's. -/
theorem never_backwards_iff (boots : List Boot) (s t : EfiVarFs)
    (hr : run step boots s = some t) :
    Along step Secure boots s ↔ Along step Upright boots s := by
  refine along_congr (I := fun _ => True) (fun _ _ _ _ _ => trivial) ?_ trivial hr
  intro u b u' _ hs
  unfold step at hs
  split_ifs at hs with hw
  exact boot_secure_iff u b hw

def willing : Answers := ⟨none, .ok 4, none, .ok 1, .ok 5, none, none⟩

def securitylevelFile (byte : UInt8) : EfiVarFs :=
  ⟨AList.singleton securitylevelName (attr++[byte]), []⟩

/-- A daemon of level 7 raises a stored 4, and one of level 5 is then refused. -/
theorem never_backwards_example :
    ∃ t, run step [⟨7, willing, willing⟩, ⟨5, willing, willing⟩] (securitylevelFile 4) = some t ∧
      (Along step Secure [⟨7, willing, willing⟩, ⟨5, willing, willing⟩] (securitylevelFile 4) ↔
        Along step Upright [⟨7, willing, willing⟩, ⟨5, willing, willing⟩] (securitylevelFile 4)) :=
  ⟨_,rfl,never_backwards_iff _ _ _ rfl⟩

/-- A daemon of level 4 accepts a stored 200 and puts 4 in its place. -/
theorem level_goes_backwards :
    ¬ ∀ (boots : List Boot) (s t : EfiVarFs), (stored s).isSome = true →
      run step boots s = some t → Along step Secure boots s := by
  intro h
  have hs : stored (securitylevelFile 200) = some 200 := by decide +kernel
  have hsecure := (h [⟨4, willing, willing⟩] (securitylevelFile 200) _ (by decide +kernel) rfl).1
  have hf := (hsecure 200 hs).2 (by decide)
  exact absurd hf (by decide +kernel)

end EosPayg.SecurityLevel
