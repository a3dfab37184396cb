import EosPayg.DryRunStore

/-!
# Listing the variables while they change

A pass over the variables begins with a rewind and goes on until there is no next name.
Other calls may come in between, also ones that write and delete variables.
-/

set_option autoImplicit false

namespace EosPayg.EfiListing
open EosPayg.EfiVariables EosPayg.SlotArray EosPayg.DryRunStore

def Result.listed : Result → Option Name
  | .name next => next
  | _ => none

def listed (rs : List Result) : List Name := rs.filterMap Result.listed

def Undisturbed (full : Name) : Call → Prop
  | .listRewind => False
  | .clear => False
  | .delete name => eospaygEfiName name ≠ full
  | .deleteFullname name => name ≠ full
  | _ => True

/-- A pass has listed the variable once, if it has come past it. -/
def ListedOnce {σ : Type} (efi : EfiOps σ) (full : Name) (calls : List (Call × Answers))
    (e : Efi σ) : Prop :=
  (listed (results efi calls e)).count full ≤ 1 ∧
    ((listNext efi (after efi calls e)).2 = none → (listed (results efi calls e)).count full = 1)

section Passes
variable {σ : Type} {efi : EfiOps σ} {full : Name} {I : σ → Prop} {p : σ → ℕ}

/-- Each call lists the variable when the pass comes past it. -/
theorem run_listed
    (hstep : ∀ (e : Efi σ) (c : Call × Answers), I e.store → Undisturbed full c.1 →
      I (perform efi e c.2 c.1).1.store ∧
        (listed [(perform efi e c.2 c.1).2]).count full+p e.store =
          p (perform efi e c.2 c.1).1.store)
    (calls : List (Call × Answers)) (hc : ∀ c ∈ calls, Undisturbed full c.1) (e : Efi σ)
    (h : I e.store) : I (after efi calls e).store ∧
      (listed (results efi calls e)).count full+p e.store = p (after efi calls e).store := by
  induction calls generalizing e with
  | nil => exact ⟨h,Nat.zero_add _⟩
  | cons c calls ih =>
    obtain ⟨hcall,hcalls⟩ := List.forall_mem_cons.mp hc
    obtain ⟨hI,hone⟩ := hstep e c h hcall
    obtain ⟨hI',hrest⟩ := ih hcalls (perform efi e c.2 c.1).1 hI
    refine ⟨hI',?_⟩
    have hsplit : listed (results efi (c::calls) e) =
        listed [(perform efi e c.2 c.1).2]++
          listed (results efi calls (perform efi e c.2 c.1).1) :=
      List.filterMap_append (l := [(perform efi e c.2 c.1).2])
    rw [hsplit,List.count_append]
    show _ = p (after efi calls (perform efi e c.2 c.1).1).store
    omega

theorem listedOnce_of
    (hstep : ∀ (e : Efi σ) (c : Call × Answers), I e.store → Undisturbed full c.1 →
      I (perform efi e c.2 c.1).1.store ∧
        (listed [(perform efi e c.2 c.1).2]).count full+p e.store =
          p (perform efi e c.2 c.1).1.store)
    (hp : ∀ s, p s ≤ 1) (hend : ∀ s, I s → (efi.listNext s).2 = none → p s = 1)
    (calls : List (Call × Answers)) (hc : ∀ c ∈ calls, Undisturbed full c.1) (e : Efi σ)
    (h : I e.store) (hstart : p e.store = 0) : ListedOnce efi full calls e := by
  obtain ⟨hI,hcount⟩ := run_listed hstep calls hc e h
  rw [hstart,Nat.add_zero] at hcount
  rw [ListedOnce,hcount]
  exact ⟨hp _,hend _ hI⟩

end Passes

def Distinct (s : FakeVars) : Prop :=
  ∀ (a b : ℕ) (u v : FakeVar), s.vars[a]? = some (some u) → s.vars[b]? = some (some v) →
    u.name = v.name → a = b

structure InSlot (full : Name) (i : ℕ) (s : FakeVars) : Prop where
  distinct : Distinct s
  stored : ∃ v : FakeVar, s.vars[i]? = some (some v) ∧ v.name = full

def passedSlot (i : ℕ) (s : FakeVars) : ℕ := if i < s.ptr then 1 else 0

variable {full : Name} {i : ℕ} {s : FakeVars}

theorem testWrite_slot (h : Distinct s) (name : Name) (content : Bytes) (allowOverwrite : Bool)
    (k : Answers) : (testWrite s name content allowOverwrite k).1 = s ∨
      ∃ (j : ℕ) (slot : Option FakeVar), s.vars[j]? = some slot ∧
        (∀ r, slot = some r → r.name = name) ∧
        (∀ (b : ℕ) (v : FakeVar), j ≠ b → s.vars[b]? = some (some v) → v.name ≠ name) ∧
        (testWrite s name content allowOverwrite k).1 = setSlot s j (some ⟨name, content⟩) := by
  cases ht : slotFor FakeVar.name name s.vars 0 none with
  | none =>
    left
    simp only [testWrite,ht]
  | some j =>
    right
    have hset : (testWrite s name content allowOverwrite k).1 =
        setSlot s j (some ⟨name, content⟩) := by
      simp only [testWrite,ht]
    rcases slotFor_cases ht with ⟨r,hr,hkey⟩ | ⟨hr,hno⟩
    · refine ⟨j,some r,hr,?_,?_,hset⟩
      · intro u hu
        cases hu
        exact hkey
      · exact fun b v hjb hb hv => hjb (h j b r v hr hb (hkey.trans hv.symm))
    · exact ⟨j,none,hr,fun u hu => (by cases hu),fun b v _ hb => hno b v hb,hset⟩

theorem testWrite_distinct (h : Distinct s) (name : Name) (content : Bytes)
    (allowOverwrite : Bool) (k : Answers) :
    Distinct (testWrite s name content allowOverwrite k).1 := by
  rcases testWrite_slot h name content allowOverwrite k with he | ⟨j,slot,hslot,-,hother,he⟩
  · rw [he]
    exact h
  · rw [he]
    intro a b u v ha hb huv
    rcases (getElem_set_some hslot a u).mp ha with ⟨rfl,hu⟩ | ⟨hja,ha⟩
    · cases hu
      rcases (getElem_set_some hslot b v).mp hb with ⟨hjb,-⟩ | ⟨hjb,hb⟩
      · exact hjb
      · exact absurd huv.symm (hother b v hjb hb)
    · rcases (getElem_set_some hslot b v).mp hb with ⟨-,hv⟩ | ⟨hjb,hb⟩
      · cases hv
        exact absurd huv (hother a u hja ha)
      · exact h a b u v ha hb huv

theorem testWrite_inSlot (h : InSlot full i s) (name : Name) (content : Bytes)
    (allowOverwrite : Bool) (k : Answers) :
    InSlot full i (testWrite s name content allowOverwrite k).1 := by
  refine ⟨testWrite_distinct h.distinct name content allowOverwrite k,?_⟩
  obtain ⟨v,hv,hfull⟩ := h.stored
  rcases testWrite_slot h.distinct name content allowOverwrite k with
    he | ⟨j,slot,hslot,hsame,-,he⟩
  · rw [he]
    exact ⟨v,hv,hfull⟩
  · rw [he]
    by_cases hij : j = i
    · subst hij
      have hname : v.name = name := hsame v (Option.some.inj (hslot.symm.trans hv))
      exact ⟨⟨name, content⟩,(getElem_set_some hslot j _).mpr (Or.inl ⟨rfl,rfl⟩),
        hname.symm.trans hfull⟩
    · exact ⟨v,(getElem_set_some hslot i _).mpr (Or.inr ⟨hij,hv⟩),hfull⟩

theorem testDelete_slot (s : FakeVars) (name : Name) (k : Answers) :
    (testDelete s name k).1 = s ∨ ∃ (j : ℕ) (r : FakeVar), s.vars[j]? = some (some r) ∧
      r.name = name ∧ (testDelete s name k).1 = setSlot s j none ∧
      ∀ (b : ℕ) (v : FakeVar), (setSlot s j none).vars[b]? = some (some v) ↔
        j ≠ b ∧ s.vars[b]? = some (some v) := by
  cases ht : s.vars.findIdx? (holdsKey FakeVar.name name) with
  | none =>
    left
    simp only [testDelete,ht]
  | some j =>
    obtain ⟨r,hr,hkey⟩ := findIdx_holdsKey ht
    refine Or.inr ⟨j,r,hr,hkey,by simp only [testDelete,ht],fun b v => ?_⟩
    refine (getElem_set_some hr b v).trans (or_iff_right ?_)
    rintro ⟨-,hnone⟩
    cases hnone

theorem testDelete_distinct (h : Distinct s) (name : Name) (k : Answers) :
    Distinct (testDelete s name k).1 := by
  rcases testDelete_slot s name k with he | ⟨j,r,-,-,he,hold⟩
  · rw [he]
    exact h
  · rw [he]
    exact fun a b u v ha hb => h a b u v ((hold a u).mp ha).2 ((hold b v).mp hb).2

theorem testDelete_inSlot (h : InSlot full i s) {name : Name} (hn : name ≠ full) (k : Answers) :
    InSlot full i (testDelete s name k).1 := by
  refine ⟨testDelete_distinct h.distinct name k,?_⟩
  obtain ⟨v,hv,hfull⟩ := h.stored
  rcases testDelete_slot s name k with he | ⟨j,r,hr,hkey,he,hold⟩
  · rw [he]
    exact ⟨v,hv,hfull⟩
  · rw [he]
    refine ⟨v,(hold i v).mpr ⟨?_,hv⟩,hfull⟩
    rintro rfl
    cases hr.symm.trans hv
    exact hn (hkey.symm.trans hfull)

theorem testListNext_vars (s : FakeVars) : (testListNext s).1.vars = s.vars := by
  unfold testListNext
  split <;> rfl

theorem new_distinct : Distinct fakeVarsNew := by
  intro a b u v ha
  have hnone : (List.replicate fakeVarCount (none : Option FakeVar))[a]? = some (some u) := ha
  cases List.eq_of_mem_replicate (List.mem_of_getElem? hnone)

theorem perform_distinct (e : Efi FakeVars) (c : Call × Answers) (h : Distinct e.store) :
    Distinct (perform testOps e c.2 c.1).1.store := by
  have hdelete (name : Name) : Distinct (varDeleteFullname testOps e name c.2).1.store := by
    unfold varDeleteFullname
    by_cases hp : HasPrefix name
    · rw [if_neg (not_not_intro hp)]
      exact testDelete_distinct h name c.2
    · rw [if_pos hp]
      exact h
  obtain ⟨call,k⟩ := c
  cases call with
  | write name content => exact testWrite_distinct h _ _ _ k
  | overwrite name content =>
    show Distinct (varOverwrite testOps e name content k).1.store
    unfold varOverwrite
    simp only
    split_ifs
    · exact h
    · exact testWrite_distinct h _ _ _ k
  | delete name => exact hdelete _
  | deleteFullname name => exact hdelete _
  | listNext =>
    intro a b u v ha hb
    have hvars : (perform testOps e k .listNext).1.store.vars = e.store.vars :=
      testListNext_vars e.store
    rw [hvars] at ha hb
    exact h a b u v ha hb
  | clear => exact new_distinct
  | _ => exact h

theorem after_distinct (calls : List (Call × Answers)) (e : Efi FakeVars)
    (h : Distinct e.store) : Distinct (after testOps calls e).store := by
  induction calls generalizing e with
  | nil => exact h
  | cons c calls ih => exact ih _ (perform_distinct e c h)

theorem testListNext_cases (s : FakeVars) :
    (∃ (q : ℕ) (u : FakeVar), s.vars[q]? = some (some u) ∧
        testListNext s = ({ s with ptr := q+1 }, some u.name) ∧ s.ptr ≤ q ∧
        ∀ (b : ℕ) (v : FakeVar), s.ptr ≤ b → s.vars[b]? = some (some v) → q ≤ b) ∨
      testListNext s = ({ s with ptr := max s.ptr fakeVarCount }, none) ∧
        ∀ (b : ℕ) (v : FakeVar), s.vars[b]? = some (some v) → b < s.ptr := by
  have hbehind (b : ℕ) (hb : s.ptr ≤ b) : (s.vars.drop s.ptr)[b-s.ptr]? = s.vars[b]? := by
    rw [List.getElem?_drop,Nat.add_sub_cancel' hb]
  cases hf : (s.vars.drop s.ptr).findIdx? Option.isSome with
  | none =>
    right
    refine ⟨by simp only [testListNext,hf],fun b v hb => ?_⟩
    by_contra hle
    rw [← hbehind b (Nat.not_lt.mp hle)] at hb
    cases List.findIdx?_eq_none_iff.mp hf _ (List.mem_of_getElem? hb)
  | some j =>
    left
    obtain ⟨hj,hsome,hfirst⟩ := List.findIdx?_eq_some_iff_getElem.mp hf
    obtain ⟨u,hu⟩ := Option.isSome_iff_exists.mp hsome
    have hq : s.vars[s.ptr+j]? = some (some u) := by
      rw [← List.getElem?_drop,List.getElem?_eq_getElem hj,hu]
    refine ⟨s.ptr+j,u,hq,?_,Nat.le_add_right _ _,fun b v hle hb => ?_⟩
    · simp only [testListNext,hf,List.getD_eq_getElem?_getD,hq]
      rfl
    · by_contra hlt
      rw [← hbehind b hle] at hb
      obtain ⟨hlen,hv⟩ := List.getElem?_eq_some_iff.mp hb
      refine hfirst (b-s.ptr) (by omega) ?_
      rw [hv]
      rfl

theorem testListNext_passed (h : InSlot full i s) :
    InSlot full i (testListNext s).1 ∧
      (listed [.name (testListNext s).2]).count full+passedSlot i s =
        passedSlot i (testListNext s).1 := by
  obtain ⟨v,hv,hfull⟩ := h.stored
  rcases testListNext_cases s with ⟨q,u,hq,hnext,hle,hfirst⟩ | ⟨hnext,hall⟩
  · rw [hnext]
    refine ⟨⟨h.distinct,v,hv,hfull⟩,?_⟩
    show [u.name].count full+passedSlot i s = passedSlot i { s with ptr := q+1 }
    by_cases hqi : q = i
    · subst hqi
      cases hv.symm.trans hq
      rw [hfull,List.count_singleton_self,passedSlot,passedSlot,if_neg (Nat.not_lt.mpr hle),
        if_pos (Nat.lt_succ_self q)]
    · have hne : u.name ≠ full := fun hu => hqi (h.distinct q i u v hq hv (hu.trans hfull.symm))
      have hiff : i < s.ptr ↔ i < q+1 := by
        have hbefore := fun hge => hfirst i v hge hv
        omega
      rw [List.count_singleton,if_neg (by simpa using hne),passedSlot,passedSlot,Nat.zero_add]
      simp only [hiff]
  · rw [hnext]
    refine ⟨⟨h.distinct,v,hv,hfull⟩,?_⟩
    have hpast := hall i v hv
    show 0+passedSlot i s = _
    rw [passedSlot,passedSlot,if_pos hpast,if_pos (hpast.trans_le (le_max_left _ _))]

theorem testListNext_end (h : InSlot full i s) (hnone : (testListNext s).2 = none) :
    passedSlot i s = 1 := by
  obtain ⟨v,hv,-⟩ := h.stored
  rcases testListNext_cases s with ⟨q,u,-,hnext,-⟩ | ⟨-,hall⟩
  · rw [hnext] at hnone
    cases hnone
  · exact if_pos (hall i v hv)

theorem testWrite_passed (name : Name) (content : Bytes) (allowOverwrite : Bool) (k : Answers) :
    passedSlot i (testWrite s name content allowOverwrite k).1 = passedSlot i s := by
  unfold testWrite
  split <;> rfl

theorem testDelete_passed (name : Name) (k : Answers) :
    passedSlot i (testDelete s name k).1 = passedSlot i s := by
  unfold testDelete
  split <;> rfl

theorem deleteFullname_passed {e : Efi FakeVars} (h : InSlot full i e.store) {name : Name}
    (hn : name ≠ full) (k : Answers) :
    InSlot full i (varDeleteFullname testOps e name k).1.store ∧
      passedSlot i e.store = passedSlot i (varDeleteFullname testOps e name k).1.store := by
  unfold varDeleteFullname
  by_cases hp : HasPrefix name
  · rw [if_neg (not_not_intro hp)]
    exact ⟨testDelete_inSlot h hn k,(testDelete_passed name k).symm⟩
  · rw [if_pos hp]
    exact ⟨h,rfl⟩

theorem test_passed (e : Efi FakeVars) (c : Call × Answers) (h : InSlot full i e.store)
    (hc : Undisturbed full c.1) :
    InSlot full i (perform testOps e c.2 c.1).1.store ∧
      (listed [(perform testOps e c.2 c.1).2]).count full+passedSlot i e.store =
        passedSlot i (perform testOps e c.2 c.1).1.store := by
  obtain ⟨call,k⟩ := c
  cases call with
  | write name content =>
    exact ⟨testWrite_inSlot h _ _ _ k,
      (Nat.zero_add _).trans (testWrite_passed _ _ _ k).symm⟩
  | overwrite name content =>
    show InSlot full i (varOverwrite testOps e name content k).1.store ∧
      0+_ = passedSlot i (varOverwrite testOps e name content k).1.store
    unfold varOverwrite
    simp only
    split_ifs
    · exact ⟨h,Nat.zero_add _⟩
    · exact ⟨testWrite_inSlot h _ _ _ k,(Nat.zero_add _).trans (testWrite_passed _ _ _ k).symm⟩
  | delete name =>
    exact (deleteFullname_passed h hc k).imp_right (fun hp => (Nat.zero_add _).trans hp)
  | deleteFullname name =>
    exact (deleteFullname_passed h hc k).imp_right (fun hp => (Nat.zero_add _).trans hp)
  | read name expectedSize => exact ⟨h,Nat.zero_add _⟩
  | readFullnameBoolean name => exact ⟨h,Nat.zero_add _⟩
  | exists_ name => exact ⟨h,Nat.zero_add _⟩
  | listRewind => exact absurd hc id
  | listNext => exact testListNext_passed h
  | clear => exact absurd hc id
  | rootPivot => exact ⟨h,Nat.zero_add _⟩

def passedStream (full : Name) (s : EfiVarFs) : ℕ := if full ∈ s.stream then 0 else 1

theorem nextWithPrefix_passed {full : Name} (hp : HasPrefix full) (stream : List Name)
    (hnodup : stream.Nodup) : (nextWithPrefix stream).2.Nodup ∧
      (nextWithPrefix stream).1.toList.count full+(if full ∈ stream then 0 else 1) =
        if full ∈ (nextWithPrefix stream).2 then 0 else 1 := by
  induction stream with
  | nil => exact ⟨List.nodup_nil,rfl⟩
  | cons name rest ih =>
    obtain ⟨hname,hrest⟩ := List.nodup_cons.mp hnodup
    by_cases hpre : HasPrefix name
    · rw [nextWithPrefix,if_pos hpre]
      refine ⟨hrest,?_⟩
      show [name].count full+_ = _
      by_cases he : full = name
      · subst he
        rw [List.count_singleton_self,if_pos List.mem_cons_self,if_neg hname]
      · have hmem : full ∈ name::rest ↔ full ∈ rest := by simp [he]
        rw [List.count_singleton,if_neg (by simpa using fun h => he h.symm),Nat.zero_add]
        simp only [hmem]
    · rw [nextWithPrefix,if_neg hpre]
      have hmem : full ∈ name::rest ↔ full ∈ rest := by
        have he : full ≠ name := fun he => hpre (he ▸ hp)
        simp [he]
      simp only [hmem]
      exact ih hrest

theorem nextWithPrefix_end {full : Name} (hp : HasPrefix full) (stream : List Name)
    (hnone : (nextWithPrefix stream).1 = none) : full ∉ stream := by
  induction stream with
  | nil => exact List.not_mem_nil
  | cons name rest ih =>
    by_cases hpre : HasPrefix name
    · rw [nextWithPrefix,if_pos hpre] at hnone
      cases hnone
    · rw [nextWithPrefix,if_neg hpre] at hnone
      rw [List.mem_cons,not_or]
      exact ⟨fun he => hpre (he ▸ hp),ih hnone⟩

theorem efivarfsWrite_stream (s : EfiVarFs) (name : Name) (content : Bytes)
    (allowOverwrite : Bool) (k : Answers) :
    (efivarfsWrite s name content allowOverwrite k).1.stream = s.stream := by
  have hopen : ∀ t, openCreate s name (!allowOverwrite) k = .ok t → t.stream = s.stream := by
    intro t ht
    unfold openCreate at ht
    split at ht
    · cases ht
    · split_ifs at ht <;> cases ht <;> rfl
  unfold efivarfsWrite
  simp only
  split
  · rfl
  · rename_i t ht
    split
    · exact hopen t ht
    · exact hopen t ht

theorem efivarfsDelete_stream (s : EfiVarFs) (name : Name) (k : Answers) :
    (efivarfsDelete s name k).1.stream = s.stream := by
  unfold efivarfsDelete
  split
  · rfl
  · split_ifs <;> rfl

theorem deleteFullname_stream (e : Efi EfiVarFs) (name : Name) (k : Answers) :
    (varDeleteFullname efivarfsOps e name k).1.store.stream = e.store.stream := by
  unfold varDeleteFullname
  by_cases hp : HasPrefix name
  · rw [if_neg (not_not_intro hp)]
    exact efivarfsDelete_stream _ name k
  · rw [if_pos hp]

theorem perform_stream (e : Efi EfiVarFs) (call : Call) (k : Answers)
    (hr : call ≠ .listRewind) (hn : call ≠ .listNext) :
    (perform efivarfsOps e k call).1.store.stream = e.store.stream ∧
      listed [(perform efivarfsOps e k call).2] = [] := by
  cases call with
  | write name content => exact ⟨efivarfsWrite_stream _ _ _ _ k,rfl⟩
  | overwrite name content =>
    refine ⟨?_,rfl⟩
    show (varOverwrite efivarfsOps e name content k).1.store.stream = _
    unfold varOverwrite
    simp only
    split_ifs
    · rfl
    · exact efivarfsWrite_stream _ _ _ _ k
  | delete name => exact ⟨deleteFullname_stream e _ k,rfl⟩
  | deleteFullname name => exact ⟨deleteFullname_stream e name k,rfl⟩
  | read name expectedSize => exact ⟨rfl,rfl⟩
  | readFullnameBoolean name => exact ⟨rfl,rfl⟩
  | exists_ name => exact ⟨rfl,rfl⟩
  | listRewind => exact absurd rfl hr
  | listNext => exact absurd rfl hn
  | clear => exact ⟨rfl,rfl⟩
  | rootPivot => exact ⟨rfl,rfl⟩

theorem efivarfs_passed {full : Name} (hp : HasPrefix full) (e : Efi EfiVarFs)
    (c : Call × Answers) (h : e.store.stream.Nodup) (hc : Undisturbed full c.1) :
    (perform efivarfsOps e c.2 c.1).1.store.stream.Nodup ∧
      (listed [(perform efivarfsOps e c.2 c.1).2]).count full+passedStream full e.store =
        passedStream full (perform efivarfsOps e c.2 c.1).1.store := by
  by_cases hn : c.1 = .listNext
  · rw [hn]
    obtain ⟨hnodup,hcount⟩ := nextWithPrefix_passed hp e.store.stream h
    refine ⟨hnodup,?_⟩
    have hlisted : listed [(perform efivarfsOps e c.2 .listNext).2] =
        (nextWithPrefix e.store.stream).1.toList := by
      show listed [.name (nextWithPrefix e.store.stream).1] = _
      cases (nextWithPrefix e.store.stream).1 <;> rfl
    rw [hlisted]
    exact hcount
  · have hr : c.1 ≠ .listRewind := fun hr => by
      rw [hr] at hc
      exact hc
    obtain ⟨hstream,hnone⟩ := perform_stream e c.1 c.2 hr hn
    rw [hnone]
    unfold passedStream
    rw [hstream]
    exact ⟨h,Nat.zero_add _⟩

/-- On either backend a variable that is there when a pass begins, and is not deleted
before its end, is listed exactly once in it, whatever is written, overwritten and
deleted in between; and it is never listed twice. -/
theorem listed_once (full : Name) (hp : HasPrefix full) (calls : List (Call × Answers))
    (hc : ∀ c ∈ calls, Undisturbed full c.1) :
    (∀ before : List (Call × Answers),
        (∃ v, some v ∈ (after testOps before testNew).store.vars ∧ v.name = full) →
        ListedOnce testOps full calls (listRewind testOps (after testOps before testNew))) ∧
      ∀ e : Efi EfiVarFs, full ∈ e.store.files →
        ListedOnce efivarfsOps full calls (listRewind efivarfsOps e) := by
  constructor
  · rintro before ⟨v,hv,hfull⟩
    obtain ⟨i,hi⟩ := List.mem_iff_getElem?.mp hv
    refine listedOnce_of (I := InSlot full i) (p := passedSlot i) test_passed (fun s => ?_)
      (fun s h hnone => testListNext_end h hnone) calls hc _
      ⟨after_distinct before testNew new_distinct,v,hi,hfull⟩ (if_neg (Nat.not_lt_zero i))
    unfold passedSlot
    split_ifs <;> decide
  · intro e hmem
    refine listedOnce_of (I := fun s => s.stream.Nodup) (p := passedStream full)
      (efivarfs_passed hp) (fun s => ?_) (fun s _ hnone => ?_) calls hc _ ?_ (if_pos ?_)
    · unfold passedStream
      split_ifs <;> decide
    · exact if_neg (nextWithPrefix_end hp s.stream hnone)
    · exact AList.keys_nodup e.store.files
    · exact AList.mem_keys.mp hmem

def deletedInBetween : List (Call × Answers) :=
  [(.listNext, grant 64), (.delete (cString "debug"), grant 64),
    (.write (cString "securitylevel") [1], grant 64), (.listNext, grant 64), (.listNext, grant 64)]

theorem listed_once_example :
    ListedOnce testOps (eospaygEfiName (cString "active")) deletedInBetween
      (listRewind testOps (after testOps [(.write (cString "debug") [1], grant 64),
        (.write (cString "active") [1], grant 64)] testNew)) := by
  have hother : eospaygEfiName (cString "debug") ≠ eospaygEfiName (cString "active") := by decide
  have hc : ∀ c ∈ deletedInBetween, Undisturbed (eospaygEfiName (cString "active")) c.1 := by
    intro c hc
    simp only [deletedInBetween,List.mem_cons,List.not_mem_nil,or_false] at hc
    rcases hc with rfl | rfl | rfl | rfl | rfl
    · trivial
    · exact hother
    · trivial
    · trivial
    · trivial
  exact (listed_once _ (RootPivot.eospaygEfiName_hasPrefix _) deletedInBetween hc).1 _
    ⟨⟨eospaygEfiName (cString "active"), [1]⟩,by decide +kernel,rfl⟩

end EosPayg.EfiListing
