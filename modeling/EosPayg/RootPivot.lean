import EosPayg.EfiVariables

/-!
# What the root pivot seals

After the pivot a variable can be created and deleted, but what is stored in
one can neither be changed nor learnt, and the variables of others are out of
reach.
-/

set_option autoImplicit false

namespace EosPayg.RootPivot
open EosPayg.EfiVariables

def Result.Discloses : Result → Prop
  | .content read => ∃ c, read.content = .ok c
  | .boolean read => ∃ b, read = .ok b
  | _ => False

def Call.Writes (name : Name) : Call → Prop
  | .write short _ => eospaygEfiName short = name
  | _ => False

def Call.Deletes (name : Name) : Call → Prop
  | .delete short => eospaygEfiName short = name
  | .deleteFullname full => full = name
  | _ => False

/-- What a call after the pivot may do to the stored variables. -/
structure Kept (call : Call) (s t : EfiVarFs) : Prop where
  unaltered : ∀ name c, s.files.lookup name = some c →
    t.files.lookup name = some c ∨ t.files.lookup name = none ∧ Call.Deletes name call
  created : ∀ name, s.files.lookup name = none → t.files.lookup name ≠ none →
    Call.Writes name call
  foreign : ∀ name, ¬ HasPrefix name → t.files.lookup name = s.files.lookup name

def SameNames (s t : EfiVarFs) : Prop := s.files.keys = t.files.keys ∧ s.stream = t.stream

theorem eospaygEfiName_hasPrefix (name : Name) : HasPrefix (eospaygEfiName name) :=
  ⟨name++cString "-"++eospaygGuid,by simp only [eospaygEfiName,fullEfiName,nvmPrefix,List.append_assoc]⟩

@[simp]
theorem perform_postPivot {σ : Type} (efi : EfiOps σ) (e : Efi σ) (k : Answers) (call : Call)
    (h : e.postPivot = true) : (perform efi e k call).1.postPivot = true := by
  cases call with
  | overwrite name content =>
    show (varOverwrite efi e name content k).1.postPivot = true
    rw [varOverwrite,if_pos h]
    exact h
  | delete name =>
    show (varDelete efi e name k).1.postPivot = true
    unfold varDelete varDeleteFullname
    split_ifs <;> exact h
  | deleteFullname name =>
    show (varDeleteFullname efi e name k).1.postPivot = true
    unfold varDeleteFullname
    split_ifs <;> exact h
  | clear =>
    show (clear efi e).1.postPivot = true
    unfold clear
    split <;> exact h
  | rootPivot => rfl
  | write name content => exact h
  | listRewind => exact h
  | listNext => exact h
  | read name expectedSize => exact h
  | readFullnameBoolean name => exact h
  | exists_ name => exact h

theorem after_postPivot {σ : Type} (efi : EfiOps σ) (calls : List (Call × Answers)) (e : Efi σ)
    (h : e.postPivot = true) : (after efi calls e).postPivot = true := by
  induction calls generalizing e with
  | nil => exact h
  | cons c cs ih => exact ih _ (perform_postPivot efi e c.2 c.1 h)

theorem after_append {σ : Type} (efi : EfiOps σ) (cs ds : List (Call × Answers)) (e : Efi σ) :
    after efi (cs++ds) e = after efi ds (after efi cs e) := by
  induction cs generalizing e with
  | nil => rfl
  | cons c cs ih => exact ih _

theorem kept_refl (call : Call) (s : EfiVarFs) : Kept call s s :=
  ⟨fun _ _ h => .inl h,fun _ h hn => absurd h hn,fun _ _ => rfl⟩

theorem openCreate_exclusive (s t : EfiVarFs) (name : Name) (k : Answers)
    (h : openCreate s name true k = .ok t) :
    name ∉ s.files ∧ t = { s with files := s.files.insert name [] } := by
  unfold openCreate at h
  split at h
  · cases h
  · by_cases hm : name ∈ s.files
    · rw [if_pos hm,if_pos rfl] at h
      cases h
    · rw [if_neg hm] at h
      cases h
      exact ⟨hm,rfl⟩

theorem efivarfsWrite_exclusive (s : EfiVarFs) (name : Name) (content : Bytes) (k : Answers) :
    (efivarfsWrite s name content false k).1 = s ∨
    name ∉ s.files ∧ ∃ c, (efivarfsWrite s name content false k).1 =
      { s with files := s.files.insert name c } := by
  unfold efivarfsWrite
  cases ho : openCreate s name (!false) k with
  | error errno => exact .inl rfl
  | ok t =>
    obtain ⟨hn,rfl⟩ := openCreate_exclusive s t name k ho
    refine .inr ⟨hn,?_⟩
    cases k.write with
    | error errno => exact ⟨[],rfl⟩
    | ok limit =>
      refine ⟨(attr++content).take (min limit (attr++content).length),?_⟩
      show EfiVarFs.mk ((s.files.insert name []).insert name _) s.stream = _
      rw [AList.insert_insert]

theorem efivarfsDelete_cases (s : EfiVarFs) (name : Name) (k : Answers) :
    (efivarfsDelete s name k).1 = s ∨
    (efivarfsDelete s name k).1 = { s with files := s.files.erase name } := by
  unfold efivarfsDelete
  cases k.unlinkat with
  | some errno => exact .inl rfl
  | none =>
    by_cases h : name ∈ s.files
    · exact .inr (by simp only [if_pos h])
    · exact .inl (by simp only [if_neg h])

theorem kept_create (s : EfiVarFs) (short : Name) (content c : Bytes)
    (hn : eospaygEfiName short ∉ s.files) :
    Kept (.write short content) s { s with files := s.files.insert (eospaygEfiName short) c } := by
  constructor
  · intro name c' h
    have hne : name ≠ eospaygEfiName short := by
      rintro rfl
      rw [AList.lookup_eq_none.mpr hn] at h
      cases h
    exact .inl (by rw [AList.lookup_insert_ne hne,h])
  · intro name h ht
    by_contra hw
    exact ht (by rw [AList.lookup_insert_ne (fun he => hw he.symm),h])
  · intro name hp
    exact AList.lookup_insert_ne (fun he => hp (he ▸ eospaygEfiName_hasPrefix short))

theorem kept_erase (call : Call) (s : EfiVarFs) (full : Name) (hp : HasPrefix full)
    (hd : Call.Deletes full call) : Kept call s { s with files := s.files.erase full } := by
  have hsame (name : Name) (hne : name ≠ full) :
      (s.files.erase full).lookup name = s.files.lookup name := AList.lookup_erase_ne hne
  constructor
  · intro name c h
    by_cases hne : name = full
    · subst hne
      exact .inr ⟨AList.lookup_erase _ _,hd⟩
    · exact .inl ((hsame name hne).trans h)
  · intro name h ht
    by_cases hne : name = full
    · subst hne
      exact absurd (AList.lookup_erase _ _) ht
    · exact absurd ((hsame name hne).trans h) ht
  · intro name hn
    exact hsame name (fun he => hn (he ▸ hp))

theorem kept_deleteFullname (call : Call) (e : Efi EfiVarFs) (full : Name) (k : Answers)
    (hd : Call.Deletes full call) :
    Kept call e.store (varDeleteFullname efivarfsOps e full k).1.store := by
  unfold varDeleteFullname
  split_ifs with hp
  · show Kept call e.store (efivarfsDelete e.store full k).1
    rcases efivarfsDelete_cases e.store full k with h | h
    · rw [h]
      exact kept_refl call e.store
    · rw [h]
      exact kept_erase call e.store full hp hd
  · exact kept_refl call e.store

theorem perform_kept (e : Efi EfiVarFs) (k : Answers) (call : Call) (h : e.postPivot = true) :
    Kept call e.store (perform efivarfsOps e k call).1.store := by
  cases call with
  | write short content =>
    show Kept _ e.store (efivarfsWrite e.store (eospaygEfiName short) content (!e.postPivot) k).1
    rw [h]
    rcases efivarfsWrite_exclusive e.store (eospaygEfiName short) content k with hs | ⟨hn,c,hs⟩
    · rw [Bool.not_true,hs]
      exact kept_refl _ e.store
    · rw [Bool.not_true,hs]
      exact kept_create e.store short content c hn
  | overwrite short content =>
    show Kept _ e.store (varOverwrite efivarfsOps e short content k).1.store
    rw [varOverwrite,if_pos h]
    exact kept_refl _ e.store
  | delete short => exact kept_deleteFullname _ e _ k rfl
  | deleteFullname full => exact kept_deleteFullname _ e full k rfl
  | listRewind => exact ⟨fun _ _ h => .inl h,fun _ h hn => absurd h hn,fun _ _ => rfl⟩
  | listNext => exact ⟨fun _ _ h => .inl h,fun _ h hn => absurd h hn,fun _ _ => rfl⟩
  | read name expectedSize => exact kept_refl _ e.store
  | readFullnameBoolean name => exact kept_refl _ e.store
  | exists_ name => exact kept_refl _ e.store
  | clear => exact kept_refl _ e.store
  | rootPivot => exact kept_refl _ e.store

/-- After the pivot the reading functions fail before they reach the backend. -/
theorem varReadFullname_sealed {σ : Type} (efi : EfiOps σ) (e : Efi σ) (name : Name)
    (expectedSize : ℤ) (k : Answers) (h : e.postPivot = true) :
    varReadFullname efi e name expectedSize k =
      ⟨.error (if expectedSize < -1 then .critical else .cannotReadAfterPivot name), -1⟩ := by
  unfold varReadFullname
  by_cases hc : expectedSize < -1
  · rw [if_pos hc,if_pos hc]
  · rw [if_neg hc,if_neg hc,if_pos h]

theorem perform_discloses_not {σ : Type} (efi : EfiOps σ) (e : Efi σ) (k : Answers) (call : Call)
    (h : e.postPivot = true) : ¬ Result.Discloses (perform efi e k call).2 := by
  cases call with
  | read name expectedSize =>
    rintro ⟨c,hc⟩
    rw [varRead,varReadFullname_sealed efi e _ expectedSize k h] at hc
    cases hc
  | readFullnameBoolean name =>
    rintro ⟨b,hb⟩
    rw [varReadFullnameBoolean,varReadFullname_sealed efi e name (-1) k h] at hb
    cases hb
  | _ => exact not_false

theorem sameNames_mem {s t : EfiVarFs} (h : SameNames s t) (name : Name) :
    name ∈ s.files ↔ name ∈ t.files := by
  rw [AList.mem_keys,AList.mem_keys,h.1]

theorem sameNames_insert {s t : EfiVarFs} (h : SameNames s t) (name : Name) (c d : Bytes) :
    SameNames { s with files := s.files.insert name c } { t with files := t.files.insert name d } :=
  ⟨by rw [AList.keys_insert,AList.keys_insert,h.1],h.2⟩

theorem efivarfsWrite_sameNames {s t : EfiVarFs} (h : SameNames s t) (name : Name)
    (content : Bytes) (allow : Bool) (k : Answers) :
    (efivarfsWrite s name content allow k).2 = (efivarfsWrite t name content allow k).2 ∧
    SameNames (efivarfsWrite s name content allow k).1 (efivarfsWrite t name content allow k).1 := by
  have hm := sameNames_mem h name
  unfold efivarfsWrite openCreate
  cases k.openat with
  | some errno => exact ⟨rfl,h⟩
  | none =>
    by_cases hs : name ∈ s.files
    · have ht := hm.mp hs
      simp only [if_pos hs,if_pos ht]
      cases allow with
      | false => exact ⟨rfl,h⟩
      | true =>
        cases k.write with
        | error errno => exact ⟨rfl,h⟩
        | ok limit => exact ⟨rfl,sameNames_insert h name _ _⟩
    · have ht := fun hn => hs (hm.mpr hn)
      simp only [if_neg hs,if_neg ht]
      cases k.write with
      | error errno => exact ⟨rfl,sameNames_insert h name _ _⟩
      | ok limit => exact ⟨rfl,sameNames_insert (sameNames_insert h name _ _) name _ _⟩

theorem efivarfsDelete_sameNames {s t : EfiVarFs} (h : SameNames s t) (name : Name)
    (k : Answers) :
    (efivarfsDelete s name k).2 = (efivarfsDelete t name k).2 ∧
    SameNames (efivarfsDelete s name k).1 (efivarfsDelete t name k).1 := by
  have hm := sameNames_mem h name
  unfold efivarfsDelete
  cases k.unlinkat with
  | some errno => exact ⟨rfl,h⟩
  | none =>
    by_cases hs : name ∈ s.files
    · simp only [if_pos hs,if_pos (hm.mp hs),true_and]
      exact ⟨by rw [AList.keys_erase,AList.keys_erase,h.1],h.2⟩
    · simp only [if_neg hs,if_neg (fun hn => hs (hm.mpr hn)),true_and]
      exact h

theorem varDeleteFullname_sameNames {e e' : Efi EfiVarFs} (h : SameNames e.store e'.store)
    (full : Name) (k : Answers) :
    (varDeleteFullname efivarfsOps e full k).2 = (varDeleteFullname efivarfsOps e' full k).2 ∧
    SameNames (varDeleteFullname efivarfsOps e full k).1.store
      (varDeleteFullname efivarfsOps e' full k).1.store := by
  unfold varDeleteFullname
  split_ifs
  · exact efivarfsDelete_sameNames h full k
  · exact ⟨rfl,h⟩

theorem perform_sameNames {e e' : Efi EfiVarFs} (k : Answers) (call : Call)
    (hp : e.postPivot = true) (hp' : e'.postPivot = true) (h : SameNames e.store e'.store) :
    (perform efivarfsOps e k call).2 = (perform efivarfsOps e' k call).2 ∧
    SameNames (perform efivarfsOps e k call).1.store (perform efivarfsOps e' k call).1.store := by
  cases call with
  | write short content =>
    have hw := efivarfsWrite_sameNames h (eospaygEfiName short) content (!e.postPivot) k
    rw [perform,perform,varWrite,varWrite,hp',← hp]
    exact ⟨congrArg Result.done hw.1,hw.2⟩
  | overwrite short content =>
    rw [perform,perform,varOverwrite,varOverwrite,if_pos hp,if_pos hp']
    exact ⟨rfl,h⟩
  | delete short =>
    have hd := varDeleteFullname_sameNames h (eospaygEfiName short) k
    exact ⟨congrArg Result.done hd.1,hd.2⟩
  | deleteFullname full =>
    have hd := varDeleteFullname_sameNames h full k
    exact ⟨congrArg Result.done hd.1,hd.2⟩
  | read name expectedSize =>
    rw [perform,perform,varRead,varRead,varReadFullname_sealed _ e _ expectedSize k hp,
      varReadFullname_sealed _ e' _ expectedSize k hp']
    exact ⟨rfl,h⟩
  | readFullnameBoolean name =>
    rw [perform,perform,varReadFullnameBoolean,varReadFullnameBoolean,
      varReadFullname_sealed _ e name (-1) k hp,varReadFullname_sealed _ e' name (-1) k hp']
    exact ⟨rfl,h⟩
  | exists_ name =>
    refine ⟨congrArg Result.answer ?_,h⟩
    show (k.faccessat.isNone && decide _) = (k.faccessat.isNone && decide _)
    rw [decide_eq_decide.mpr (sameNames_mem h (eospaygEfiName name))]
  | listRewind => exact ⟨rfl,h.1,h.1⟩
  | listNext =>
    refine ⟨congrArg Result.name ?_,h.1,?_⟩
    · show (nextWithPrefix e.store.stream).1 = (nextWithPrefix e'.store.stream).1
      rw [h.2]
    · show (nextWithPrefix e.store.stream).2 = (nextWithPrefix e'.store.stream).2
      rw [h.2]
  | clear => exact ⟨rfl,h⟩
  | rootPivot => exact ⟨rfl,h⟩

theorem results_sameNames (calls : List (Call × Answers)) (e e' : Efi EfiVarFs)
    (hp : e.postPivot = true) (hp' : e'.postPivot = true) (h : SameNames e.store e'.store) :
    results efivarfsOps calls e = results efivarfsOps calls e' := by
  induction calls generalizing e e' with
  | nil => rfl
  | cons c cs ih =>
    obtain ⟨hr,hs⟩ := perform_sameNames c.2 c.1 hp hp' h
    rw [results,results,hr,ih _ _
      (perform_postPivot _ e c.2 c.1 hp) (perform_postPivot _ e' c.2 c.1 hp') hs]

theorem results_discloses_not {σ : Type} (efi : EfiOps σ) (calls : List (Call × Answers))
    (e : Efi σ) (h : e.postPivot = true) : ∀ r ∈ results efi calls e, ¬ Result.Discloses r := by
  induction calls generalizing e with
  | nil => exact fun _ hr => absurd hr List.not_mem_nil
  | cons c cs ih =>
    intro r hr
    rcases List.mem_cons.mp hr with rfl | hr
    · exact perform_discloses_not efi e c.2 c.1 h
    · exact ih _ (perform_postPivot efi e c.2 c.1 h) r hr

/-- In any sequence of calls after the root pivot no result gives a content, the
results are those for any other contents under the same names, and each call
leaves contents, other than by deletion, and foreign variables as they are. -/
theorem sealed_after_pivot (e : Efi EfiVarFs) (calls : List (Call × Answers)) :
    (∀ r ∈ results efivarfsOps calls (rootPivot e), ¬ Result.Discloses r) ∧
    (∀ e' : Efi EfiVarFs, SameNames e.store e'.store →
      results efivarfsOps calls (rootPivot e') = results efivarfsOps calls (rootPivot e)) ∧
    ∀ before call k rest, calls = before++(call,k)::rest →
      Kept call (after efivarfsOps before (rootPivot e)).store
        (after efivarfsOps (before++[(call,k)]) (rootPivot e)).store := by
  refine ⟨results_discloses_not efivarfsOps calls (rootPivot e) rfl,?_,?_⟩
  · intro e' h
    exact (results_sameNames calls (rootPivot e) (rootPivot e') rfl rfl h).symm
  · intro before call k rest _
    rw [after_append]
    exact perform_kept _ k call (after_postPivot efivarfsOps before (rootPivot e) rfl)

def oneVariable (content : Bytes) : EfiVarFs :=
  ⟨AList.singleton (eospaygEfiName (cString "key")) content, []⟩

def granting : Answers := ⟨none, .ok 4, none, .ok 64, .ok 64, none, none⟩

def readAndDelete : List (Call × Answers) :=
  [(.read (cString "key") 1, granting), (.delete (cString "key"), granting)]

/-- Two contents under one name answer a read and a delete alike. -/
theorem sealed_after_pivot_example :
    SameNames (oneVariable [7, 0, 0, 0, 1]) (oneVariable [7, 0, 0, 0, 2]) ∧
      results efivarfsOps readAndDelete (rootPivot ⟨oneVariable [7, 0, 0, 0, 2], false⟩) =
        results efivarfsOps readAndDelete (rootPivot ⟨oneVariable [7, 0, 0, 0, 1], false⟩) ∧
      Kept (.delete (cString "key"))
        (after efivarfsOps [(.read (cString "key") 1, granting)]
          (rootPivot ⟨oneVariable [7, 0, 0, 0, 1], false⟩)).store
        (after efivarfsOps readAndDelete (rootPivot ⟨oneVariable [7, 0, 0, 0, 1], false⟩)).store := by
  obtain ⟨-,hresults,hkept⟩ := sealed_after_pivot ⟨oneVariable [7, 0, 0, 0, 1], false⟩ readAndDelete
  refine ⟨⟨rfl,rfl⟩,hresults ⟨oneVariable [7, 0, 0, 0, 2], false⟩ ⟨rfl,rfl⟩,?_⟩
  exact hkept [(.read (cString "key") 1, granting)] (.delete (cString "key")) granting [] rfl

end EosPayg.RootPivot
