import EosPayg.RootPivot
import EosPayg.GuardedRun
import EosPayg.SlotArray

/-!
# The store for dry runs

In test mode the variables are kept in an array instead of in files. The two
backends are given the same calls, the one over files with a kernel that grants
whatever it is asked. What a caller sees is whether a call succeeded, what it
read and what was said to exist.
-/

set_option autoImplicit false

namespace EosPayg.DryRunStore
open EosPayg.EfiVariables EosPayg.SlotArray EosPayg.GuardedRun

structure FakeVar where
  name : Name
  content : Bytes
  deriving DecidableEq

def fakeVarCount : ℕ := 200

structure FakeVars where
  vars : List (Option FakeVar)
  ptr : ℕ
  count : vars.length = fakeVarCount

def fakeVarsNew : FakeVars := ⟨List.replicate fakeVarCount none, 0, List.length_replicate⟩

def setSlot (s : FakeVars) (i : ℕ) (slot : Option FakeVar) : FakeVars :=
  { s with vars := s.vars.set i slot, count := by rw [List.length_set,s.count] }

/-- Overwrites whatever has the name, whether or not that is allowed. -/
def testWrite (s : FakeVars) (name : Name) (content : Bytes) (_allowOverwrite : Bool)
    (_ : Answers) : FakeVars × Except EfiError Unit :=
  match slotFor FakeVar.name name s.vars 0 none with
  | some target => (setSlot s target (some ⟨name, content⟩), .ok ())
  | none => (s, .error (.couldNotFindStorage name))

def testDelete (s : FakeVars) (name : Name) (_ : Answers) : FakeVars × Except EfiError Unit :=
  match s.vars.findIdx? (holdsKey FakeVar.name name) with
  | some i => (setSlot s i none, .ok ())
  | none => (s, .error (.variableNotFound name))

/-- Looks for the name as it is given. -/
def testExists (s : FakeVars) (name : Name) (_ : Answers) : Bool :=
  s.vars.any (holdsKey FakeVar.name name)

def testRead (s : FakeVars) (name : Name) (_ : Answers) : ReadResult :=
  match (s.vars.find? (holdsKey FakeVar.name name)).join with
  | some v => ⟨.ok v.content, v.content.length⟩
  | none => ⟨.error (.notFound name), -1⟩

def testListRewind (s : FakeVars) : FakeVars := { s with ptr := 0 }

def testListNext (s : FakeVars) : FakeVars × Option Name :=
  match (s.vars.drop s.ptr).findIdx? Option.isSome with
  | some j => ({ s with ptr := s.ptr+j+1 }, (s.vars.getD (s.ptr+j) none).map FakeVar.name)
  | none => ({ s with ptr := max s.ptr fakeVarCount }, none)

def testClear (_ : FakeVars) : FakeVars × Bool := (fakeVarsNew, true)

def testOps : EfiOps FakeVars where
  varExists := testExists
  read := testRead
  write := testWrite
  delete := testDelete
  listRewind := testListRewind
  listNext := testListNext
  clear := some testClear

def grant (n : ℕ) : Answers := ⟨none, .ok 4, none, .ok n, .ok n, none, none⟩

inductive Observed where
  | success (yes : Bool)
  | content (bytes : Option Bytes) (size : ℤ)
  | boolean (value : Option Bool)
  | answer (yes : Bool)
  | name (next : Option Name)
  | nothing
  deriving DecidableEq

def observe : Result → Observed
  | .done r => .success r.isOk
  | .content r => .content r.content.toOption r.size
  | .boolean r => .boolean r.toOption
  | .answer yes => .answer yes
  | .name next => .name next
  | .nothing => .nothing

def observed {σ : Type} (efi : EfiOps σ) (n : ℕ) (calls : List Call) (e : Efi σ) :
    List Observed :=
  (results efi (calls.map (fun c => (c,grant n))) e).map observe

def callName : Call → Option Name
  | .write name _ => some name
  | .overwrite name _ => some name
  | .delete name => some name
  | .read name _ => some name
  | .exists_ name => some name
  | _ => none

def Compared (n : ℕ) : Call → Prop
  | .write _ content => content ≠ [] ∧ 4+content.length ≤ n
  | .overwrite _ content => content ≠ [] ∧ 4+content.length ≤ n
  | .delete _ => True
  | .read _ _ => True
  | .exists_ _ => True
  | .rootPivot => True
  | _ => False

def touched (calls : List Call) : Finset Name := (calls.filterMap callName).toFinset

def efivarfsStep (n : ℕ) (e : Efi EfiVarFs) (c : Call) : Option (Efi EfiVarFs) :=
  some (perform efivarfsOps e (grant n) c).1

/-- A variable that is written after the pivot is new, and a name that is asked
for is stored as it is given just when it is stored as the name of a variable. -/
def Alike (e : Efi EfiVarFs) : Call → Prop
  | .write name _ => e.postPivot = true → eospaygEfiName name ∉ e.store.files
  | .exists_ name => name ∈ e.store.files ↔ eospaygEfiName name ∈ e.store.files
  | _ => True

structure Same (names : Finset Name) (n : ℕ) (m : Name → Option FakeVar) (e : Efi FakeVars)
    (e' : Efi EfiVarFs) : Prop where
  pivot : e.postPivot = e'.postPivot
  fake : Represents FakeVar.name e.store.vars m
  files : ∀ name, e'.store.files.lookup name = (m name).map (fun v => attr++v.content)
  named : ∀ name, m name ≠ none → name ∈ names
  held : ∀ name v, m name = some v → v.content ≠ [] ∧ 4+v.content.length ≤ n

section Array
variable {m : Name → Option FakeVar} {s : FakeVars} (h : Represents FakeVar.name s.vars m)
include h

theorem testExists_eq (name : Name) (k : Answers) :
    testExists s name k = (m name).isSome := any_holdsKey h name

theorem testRead_eq (name : Name) (k : Answers) :
    testRead s name k = match m name with
      | some v => ⟨.ok v.content, v.content.length⟩
      | none => ⟨.error (.notFound name), -1⟩ := by
  rw [testRead,find_holdsKey h]

theorem testDelete_some {name : Name} {v : FakeVar} (hv : m name = some v) (k : Answers) :
    (testDelete s name k).2 = .ok () ∧
      Represents FakeVar.name (testDelete s name k).1.vars (Function.update m name none) := by
  cases hi : s.vars.findIdx? (holdsKey FakeVar.name name) with
  | none =>
    rw [(findIdx_none h).mp hi] at hv
    cases hv
  | some i =>
    obtain ⟨r,hr,rfl⟩ := findIdx_holdsKey hi
    simp only [testDelete,hi]
    exact ⟨trivial,represents_free h hr⟩

theorem testDelete_none {name : Name} (hv : m name = none) (k : Answers) :
    testDelete s name k = (s, .error (.variableNotFound name)) := by
  simp only [testDelete,(findIdx_none h).mpr hv]

theorem testWrite_stored {names : Finset Name} (hnames : ∀ name, m name ≠ none → name ∈ names)
    (hcard : names.card ≤ fakeVarCount) {name : Name} (hname : name ∈ names) (content : Bytes)
    (allowOverwrite : Bool) (k : Answers) :
    (testWrite s name content allowOverwrite k).2 = .ok () ∧
      Represents FakeVar.name (testWrite s name content allowOverwrite k).1.vars
        (Function.update m name (some ⟨name, content⟩)) := by
  obtain ⟨i,slot,hi,hslot,hsame,hfree⟩ :=
    slotFor_some h names hnames (s.count.symm ▸ hcard) hname
  simp only [testWrite,hi]
  exact ⟨trivial,represents_set (r := ⟨name, content⟩) h hslot hsame hfree⟩

end Array

section Files
variable {m : Name → Option FakeVar} {n : ℕ} {s : EfiVarFs}

theorem efivarfsWrite_exists {name : Name} (hmem : name ∈ s.files) (content : Bytes) :
    efivarfsWrite s name content false (grant n) = (s, .error (.failedToOpen name eexist)) := by
  simp only [efivarfsWrite,openCreate,grant,if_pos hmem]
  rfl

variable (hs : ∀ name, s.files.lookup name = (m name).map (fun v => attr++v.content))
include hs

theorem mem_files (name : Name) : name ∈ s.files ↔ m name ≠ none := by
  rw [← not_iff_not,← AList.lookup_eq_none,hs,Option.map_eq_none_iff,not_not]

theorem efivarfsExists_eq (name : Name) :
    efivarfsExists s name (grant n) = (m (eospaygEfiName name)).isSome := by
  rw [efivarfsExists,Bool.eq_iff_iff,Bool.and_eq_true,decide_eq_true_iff,mem_files hs,
    Option.isSome_iff_ne_none]
  exact and_iff_right rfl

theorem efivarfsRead_eq
    (hheld : ∀ name v, m name = some v → v.content ≠ [] ∧ 4+v.content.length ≤ n) (name : Name) :
    efivarfsRead s name (grant n) = match m name with
      | some v => ⟨.ok v.content, v.content.length⟩
      | none => ⟨.error (.failedToOpen name enoent), -1⟩ := by
  cases hm : m name with
  | none => simp [efivarfsRead,grant,hs,hm]
  | some v =>
    obtain ⟨hne,hn⟩ := hheld name v hm
    have hpos := List.length_pos_iff.mpr hne
    have hlen : (attr++v.content).length = 4+v.content.length := List.length_append
    have h4 : min 4 (min 4 (attr++v.content).length) = 4 := by omega
    have h5 : ¬(attr++v.content).length < 5 := by omega
    have hall : min n v.content.length = v.content.length := by omega
    have hsize : (attr++v.content).length-4 = v.content.length := by omega
    simp only [efivarfsRead,grant,hs,hm,Option.map_some,h4,ne_eq,not_true_eq_false,if_false,
      if_neg h5,hsize,hall]
    rfl

theorem efivarfsDelete_some {name : Name} {v : FakeVar} (hv : m name = some v) :
    (efivarfsDelete s name (grant n)).2 = .ok () ∧
      ∀ other, (efivarfsDelete s name (grant n)).1.files.lookup other =
        (Function.update m name none other).map (fun v => attr++v.content) := by
  have hmem : name ∈ s.files := (mem_files hs name).mpr (by simp [hv])
  simp only [efivarfsDelete,grant,if_pos hmem,true_and]
  intro other
  by_cases ho : other = name
  · rw [ho,AList.lookup_erase,Function.update_self]
    rfl
  · rw [AList.lookup_erase_ne ho,Function.update_of_ne ho,hs]

theorem efivarfsDelete_none {name : Name} (hv : m name = none) :
    efivarfsDelete s name (grant n) = (s, .error (.failedToDelete name enoent)) := by
  have hmem : name ∉ s.files := fun hm => (mem_files hs name).mp hm hv
  simp only [efivarfsDelete,grant,if_neg hmem]

theorem efivarfsWrite_stored {name : Name} {content : Bytes} {allowOverwrite : Bool}
    (hn : 4+content.length ≤ n) (hallow : allowOverwrite = true ∨ m name = none) :
    (efivarfsWrite s name content allowOverwrite (grant n)).2 = .ok () ∧
      ∀ other, (efivarfsWrite s name content allowOverwrite (grant n)).1.files.lookup other =
        (Function.update m name (some ⟨name, content⟩) other).map (fun v => attr++v.content) := by
  have hlen : (attr++content).length = 4+content.length := List.length_append
  have hall : min n (attr++content).length = (attr++content).length := by omega
  have hwritten (files : AList (fun _ : Name => Bytes))
      (hf : ∀ other, other ≠ name → files.lookup other = s.files.lookup other) (other : Name) :
      (files.insert name (attr++content)).lookup other =
        (Function.update m name (some ⟨name, content⟩) other).map (fun v => attr++v.content) := by
    by_cases ho : other = name
    · rw [ho,AList.lookup_insert,Function.update_self]
      rfl
    · rw [AList.lookup_insert_ne ho,Function.update_of_ne ho,hf other ho,hs]
  by_cases hmem : name ∈ s.files
  · have ht : allowOverwrite = true :=
      hallow.resolve_right ((mem_files hs name).mp hmem)
    subst ht
    simp only [efivarfsWrite,openCreate,grant,if_pos hmem,hall,List.take_length,lt_irrefl,
      if_false]
    exact ⟨rfl,hwritten s.files (fun _ _ => rfl)⟩
  · simp only [efivarfsWrite,openCreate,grant,if_neg hmem,hall,List.take_length,lt_irrefl,
      if_false]
    exact ⟨trivial,hwritten _ (fun other ho => AList.lookup_insert_ne ho)⟩

end Files

section Calls
variable {names : Finset Name} {n : ℕ} {m : Name → Option FakeVar} {e : Efi FakeVars}
  {e' : Efi EfiVarFs}

theorem same_stored (h : Same names n m e e') (hcard : names.card ≤ fakeVarCount) {name : Name}
    (hname : name ∈ names) {content : Bytes} (hne : content ≠ []) (hn : 4+content.length ≤ n)
    {allow : Bool} (hallow : allow = true ∨ m name = none) :
    (testWrite e.store name content allow (grant n)).2 = .ok () ∧
      (efivarfsWrite e'.store name content allow (grant n)).2 = .ok () ∧
      Same names n (Function.update m name (some ⟨name, content⟩))
        { e with store := (testWrite e.store name content allow (grant n)).1 }
        { e' with store := (efivarfsWrite e'.store name content allow (grant n)).1 } := by
  obtain ⟨ht,hfake⟩ := testWrite_stored h.fake h.named hcard hname content allow (grant n)
  obtain ⟨hr,hfiles⟩ := efivarfsWrite_stored h.files hn hallow
  refine ⟨ht,hr,h.pivot,hfake,hfiles,?_,?_⟩
  · intro other ho
    by_cases hk : other = name
    · exact hk ▸ hname
    · rw [Function.update_of_ne hk] at ho
      exact h.named other ho
  · intro other v hv
    by_cases hk : other = name
    · subst hk
      rw [Function.update_self] at hv
      cases hv
      exact ⟨hne,hn⟩
    · rw [Function.update_of_ne hk] at hv
      exact h.held other v hv

theorem write_alike (h : Same names n m e e') (hcard : names.card ≤ fakeVarCount) {name : Name}
    (hname : eospaygEfiName name ∈ names) {content : Bytes} (hne : content ≠ [])
    (hn : 4+content.length ≤ n) :
    (observe (.done (varWrite testOps e name content (grant n)).2) =
        observe (.done (varWrite efivarfsOps e' name content (grant n)).2) ↔
      (e'.postPivot = true → eospaygEfiName name ∉ e'.store.files)) ∧
    ((e'.postPivot = true → eospaygEfiName name ∉ e'.store.files) →
      ∃ m', Same names n m' (varWrite testOps e name content (grant n)).1
        (varWrite efivarfsOps e' name content (grant n)).1) := by
  simp only [varWrite,testOps,efivarfsOps,h.pivot]
  by_cases hallow : e'.postPivot = true → eospaygEfiName name ∉ e'.store.files
  · have ha : (!e'.postPivot) = true ∨ m (eospaygEfiName name) = none := by
      cases hp : e'.postPivot with
      | false => exact Or.inl rfl
      | true => exact Or.inr (not_not.mp (fun hm => hallow hp ((mem_files h.files _).mpr hm)))
    obtain ⟨ht,hr,hsame⟩ := same_stored h hcard hname hne hn ha
    rw [h.pivot] at hsame
    rw [ht,hr]
    exact ⟨iff_of_true rfl hallow,fun _ => ⟨_,hsame⟩⟩
  · refine ⟨iff_of_false ?_ hallow,fun hyes => absurd hyes hallow⟩
    obtain ⟨hp,hmem⟩ := Classical.not_imp.mp hallow
    obtain ⟨ht,-⟩ := testWrite_stored h.fake h.named hcard hname content false (grant n)
    rw [hp,Bool.not_true,ht,efivarfsWrite_exists (not_not.mp hmem)]
    exact fun hno => by cases hno

theorem overwrite_alike (h : Same names n m e e') (hcard : names.card ≤ fakeVarCount)
    {name : Name} (hname : eospaygEfiName name ∈ names) {content : Bytes} (hne : content ≠ [])
    (hn : 4+content.length ≤ n) :
    observe (.done (varOverwrite testOps e name content (grant n)).2) =
        observe (.done (varOverwrite efivarfsOps e' name content (grant n)).2) ∧
      ∃ m', Same names n m' (varOverwrite testOps e name content (grant n)).1
        (varOverwrite efivarfsOps e' name content (grant n)).1 := by
  simp only [varOverwrite,testOps,efivarfsOps,h.pivot]
  by_cases hp : e'.postPivot = true
  · rw [if_pos hp,if_pos hp]
    exact ⟨rfl,m,h⟩
  · obtain ⟨ht,hr,hsame⟩ := same_stored h hcard hname hne hn (Or.inl rfl)
    rw [h.pivot] at hsame
    rw [if_neg hp,if_neg hp,ht,hr]
    exact ⟨rfl,_,hsame⟩

theorem delete_alike (h : Same names n m e e') (name : Name) :
    observe (.done (varDelete testOps e name (grant n)).2) =
        observe (.done (varDelete efivarfsOps e' name (grant n)).2) ∧
      ∃ m', Same names n m' (varDelete testOps e name (grant n)).1
        (varDelete efivarfsOps e' name (grant n)).1 := by
  have hprefix : ¬¬HasPrefix (eospaygEfiName name) :=
    not_not.mpr (RootPivot.eospaygEfiName_hasPrefix name)
  simp only [varDelete,varDeleteFullname,testOps,efivarfsOps,if_neg hprefix]
  cases hm : m (eospaygEfiName name) with
  | none =>
    rw [testDelete_none h.fake hm,efivarfsDelete_none h.files hm]
    exact ⟨rfl,m,h⟩
  | some v =>
    obtain ⟨ht,hfake⟩ := testDelete_some h.fake hm (grant n)
    obtain ⟨hr,hfiles⟩ := efivarfsDelete_some (n := n) h.files hm
    have hkept (other : Name) (w : FakeVar)
        (hw : Function.update m (eospaygEfiName name) none other = some w) :
        m other = some w := by
      by_cases hk : other = eospaygEfiName name
      · rw [hk,Function.update_self] at hw
        cases hw
      · rwa [Function.update_of_ne hk] at hw
    rw [ht,hr]
    refine ⟨rfl,_,h.pivot,hfake,hfiles,?_,fun other w hw => h.held other w (hkept other w hw)⟩
    intro other ho
    obtain ⟨w,hw⟩ := Option.ne_none_iff_exists'.mp ho
    exact h.named other (by simp [hkept other w hw])

theorem read_alike (h : Same names n m e e') (name : Name) (expectedSize : ℤ) :
    observe (.content (varRead testOps e name expectedSize (grant n))) =
      observe (.content (varRead efivarfsOps e' name expectedSize (grant n))) := by
  have ht := testRead_eq h.fake (eospaygEfiName name) (grant n)
  have hr := efivarfsRead_eq h.files h.held (eospaygEfiName name)
  simp only [varRead,varReadFullname,testOps,efivarfsOps,h.pivot,ht,hr]
  cases m (eospaygEfiName name) with
  | none => split_ifs <;> rfl
  | some v => rfl

theorem exists_alike (h : Same names n m e e') (name : Name) :
    observe (.answer (varExists testOps e name (grant n))) =
        observe (.answer (varExists efivarfsOps e' name (grant n))) ↔
      (name ∈ e'.store.files ↔ eospaygEfiName name ∈ e'.store.files) := by
  have ht : varExists testOps e name (grant n) = (m name).isSome :=
    testExists_eq h.fake name (grant n)
  have hr : varExists efivarfsOps e' name (grant n) = (m (eospaygEfiName name)).isSome :=
    efivarfsExists_eq (n := n) h.files name
  rw [ht,hr,mem_files h.files,mem_files h.files,← Option.isSome_iff_ne_none,
    ← Option.isSome_iff_ne_none,← Bool.eq_iff_iff]
  exact ⟨fun ho => Observed.answer.inj ho,fun hb => congrArg Observed.answer hb⟩

/-- A call is seen to do the same on both stores exactly under the condition, and
then leaves them with the same variables. -/
theorem call_alike (h : Same names n m e e') (hcard : names.card ≤ fakeVarCount) (c : Call)
    (hname : ∀ name, callName c = some name → eospaygEfiName name ∈ names)
    (hc : Compared n c) :
    (observe (perform testOps e (grant n) c).2 = observe (perform efivarfsOps e' (grant n) c).2 ↔
      Alike e' c) ∧
    (Alike e' c → ∃ m', Same names n m' (perform testOps e (grant n) c).1
      (perform efivarfsOps e' (grant n) c).1) := by
  cases c with
  | write name content => exact write_alike h hcard (hname name rfl) hc.1 hc.2
  | overwrite name content =>
    obtain ⟨ho,hs⟩ := overwrite_alike h hcard (hname name rfl) hc.1 hc.2
    exact ⟨iff_of_true ho trivial,fun _ => hs⟩
  | delete name =>
    obtain ⟨ho,hs⟩ := delete_alike h name
    exact ⟨iff_of_true ho trivial,fun _ => hs⟩
  | read name expectedSize =>
    exact ⟨iff_of_true (read_alike h name expectedSize) trivial,fun _ => ⟨m,h⟩⟩
  | exists_ name => exact ⟨exists_alike h name,fun _ => ⟨m,h⟩⟩
  | rootPivot =>
    exact ⟨iff_of_true rfl trivial,fun _ => ⟨m,rfl,h.fake,h.files,h.named,h.held⟩⟩
  | deleteFullname name => exact hc.elim
  | readFullnameBoolean name => exact hc.elim
  | listRewind => exact hc.elim
  | listNext => exact hc.elim
  | clear => exact hc.elim

theorem observed_eq_iff (calls : List Call) (h : Same names n m e e')
    (hcard : names.card ≤ fakeVarCount)
    (hname : ∀ c ∈ calls, ∀ name, callName c = some name → eospaygEfiName name ∈ names)
    (hc : ∀ c ∈ calls, Compared n c) :
    observed testOps n calls e = observed efivarfsOps n calls e' ↔
      Along (efivarfsStep n) Alike calls e' := by
  induction calls generalizing m e e' with
  | nil => exact iff_of_true rfl trivial
  | cons c cs ih =>
    obtain ⟨hone,hnext⟩ := call_alike h hcard c (hname c List.mem_cons_self)
      (hc c List.mem_cons_self)
    have hsplit : observed testOps n (c::cs) e = observed efivarfsOps n (c::cs) e' ↔
        observe (perform testOps e (grant n) c).2 =
            observe (perform efivarfsOps e' (grant n) c).2 ∧
          observed testOps n cs (perform testOps e (grant n) c).1 =
            observed efivarfsOps n cs (perform efivarfsOps e' (grant n) c).1 :=
      List.cons_eq_cons
    rw [hsplit,hone]
    refine and_congr_right fun ha => ?_
    obtain ⟨m',hs⟩ := hnext ha
    rw [ih hs (fun d hd => hname d (List.mem_cons_of_mem _ hd))
      (fun d hd => hc d (List.mem_cons_of_mem _ hd))]
    constructor
    · intro hrest e'' he
      cases he
      exact hrest
    · exact fun hrest => hrest _ rfl

end Calls

def testNew : Efi FakeVars := ⟨fakeVarsNew, false⟩

def efivarfsNew : Efi EfiVarFs := ⟨⟨∅, []⟩, false⟩

theorem new_same (names : Finset Name) (n : ℕ) :
    Same names n (fun _ => none) testNew efivarfsNew := by
  have hempty (i : ℕ) (v : FakeVar) : fakeVarsNew.vars[i]? ≠ some (some v) := by
    intro hv
    have hmem := List.eq_of_mem_replicate (List.mem_of_getElem? hv)
    cases hmem
  refine ⟨rfl,⟨fun i j r s hr => absurd hr (hempty i r),fun name v => ?_⟩,fun name => ?_,
    fun name h => absurd rfl h,fun name v h => by cases h⟩
  · exact iff_of_false (Option.some_ne_none v).symm (fun h => h.2.elim fun i hi => hempty i v hi)
  · exact AList.lookup_empty name

/-- Over no more variables than there are slots, the dry run is seen to do what the
files do exactly when no write after the pivot is to an existing variable and a
name asked for is stored as it is given just when it is as that of a variable. -/
theorem dry_run_iff (n : ℕ) (calls : List Call) (hc : ∀ c ∈ calls, Compared n c)
    (ht : (touched calls).card ≤ fakeVarCount) :
    observed testOps n calls testNew = observed efivarfsOps n calls efivarfsNew ↔
      Along (efivarfsStep n) Alike calls efivarfsNew := by
  have hs := new_same ((touched calls).image eospaygEfiName) n
  refine observed_eq_iff calls hs (Finset.card_image_le.trans ht) ?_ hc
  intro c hm name hn
  refine Finset.mem_image_of_mem _ ?_
  rw [touched,List.mem_toFinset,List.mem_filterMap]
  exact ⟨c,hm,hn⟩

def levelCalls : List Call :=
  [.overwrite (cString "securitylevel") [1], .read (cString "securitylevel") 1,
    .delete (cString "securitylevel"), .exists_ (cString "securitylevel"), .rootPivot,
    .write (cString "securitylevel") [2], .overwrite (cString "securitylevel") [3]]

theorem dry_run_iff_example :
    (touched levelCalls).card ≤ fakeVarCount ∧
      Along (efivarfsStep 64) Alike levelCalls efivarfsNew := by
  have ht : (touched levelCalls).card ≤ fakeVarCount := by decide +kernel
  exact ⟨ht,(dry_run_iff 64 levelCalls (by simp [levelCalls,Compared]) ht).mp
    (by decide +kernel)⟩

def debugCalls : List Call :=
  [.write (cString "debug") [1], .exists_ (cString "debug"), .rootPivot,
    .write (cString "debug") [2]]

/-- A variable that was written does not exist, and can be written again after the
pivot. -/
theorem dry_run_differs :
    ¬ ∀ (n : ℕ) (calls : List Call), (∀ c ∈ calls, Compared n c) →
      (touched calls).card ≤ fakeVarCount →
      observed testOps n calls testNew = observed efivarfsOps n calls efivarfsNew := by
  intro h
  exact absurd (h 64 debugCalls (by simp [debugCalls,Compared]) (by decide +kernel))
    (by decide +kernel)

end EosPayg.DryRunStore
