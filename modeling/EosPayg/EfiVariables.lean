import Mathlib.Data.List.AList
import Mathlib.Tactic

/-!
# EFI variables before and after the root pivot

The public functions put the name of a variable together, refuse what the root
pivot forbids and pass the rest to a backend. The efivarfs backend keeps the
variables as files, each with four bytes of attributes in front. What the
kernel answers to a system call is an input of every function that makes one.
-/

set_option autoImplicit false

namespace EosPayg.EfiVariables

abbrev Name := List UInt8
abbrev Bytes := List UInt8
abbrev Errno := ℕ

def enoent : Errno := 2
def eexist : Errno := 17

def cString (s : String) : Name := s.toList.map (fun c => UInt8.ofNat c.toNat)

def eospaygGuid : Name := cString "d89c3871-ae0c-4fc5-a409-dc717aee61e7"
def nvmPrefix : Name := cString "EOSPAYG_"

def fullEfiName (guid name : Name) : Name := name++cString "-"++guid

def eospaygEfiName (name : Name) : Name := fullEfiName eospaygGuid (cString "EOSPAYG_"++name)

def HasPrefix (name : Name) : Prop := nvmPrefix <+: name

instance (name : Name) : Decidable (HasPrefix name) := inferInstanceAs (Decidable (_ <+: _))

inductive EfiError where
  | failedToOpen (name : Name) (errno : Errno)
  | failedToReadAttributes (name : Name) (errno : Errno)
  | readOnlyAttributes (ret : ℕ) (name : Name)
  | fstatFailed (name : Name) (errno : Errno)
  | hasLength (name : Name) (fsize : ℕ)
  | failedToReadContents (name : Name) (errno : Errno)
  | readBytes (ret fsize : ℕ) (name : Name)
  | failedToWrite (name : Name) (errno : Errno)
  | wroteOnly (ret tsize : ℕ) (name : Name)
  | failedToDelete (name : Name) (errno : Errno)
  | attemptedOverwriteAfterPivot (name : Name)
  | cannotReadAfterPivot (name : Name)
  | refusingToDelete (name : Name)
  | unexpectedSize (size expectedSize : ℤ)
  | critical
  | couldNotFindStorage (name : Name)
  | variableNotFound (name : Name)
  | notFound (name : Name)
  deriving DecidableEq, Repr

/-- What the kernel answers to the system calls of one function. A transfer
moves at most the given number of bytes. -/
structure Answers where
  openat : Option Errno
  readAttributes : Except Errno ℕ
  fstat : Option Errno
  readContents : Except Errno ℕ
  write : Except Errno ℕ
  unlinkat : Option Errno
  faccessat : Option Errno

structure ReadResult where
  content : Except EfiError Bytes
  size : ℤ

structure EfiOps (σ : Type) where
  varExists : σ → Name → Answers → Bool
  read : σ → Name → Answers → ReadResult
  write : σ → Name → Bytes → Bool → Answers → σ × Except EfiError Unit
  delete : σ → Name → Answers → σ × Except EfiError Unit
  listRewind : σ → σ
  listNext : σ → σ × Option Name
  clear : Option (σ → σ × Bool)

structure Efi (σ : Type) where
  store : σ
  postPivot : Bool

section Public

variable {σ : Type} (efi : EfiOps σ)

def rootPivot (e : Efi σ) : Efi σ := { e with postPivot := true }

def varWrite (e : Efi σ) (name : Name) (content : Bytes) (k : Answers) :
    Efi σ × Except EfiError Unit :=
  let allowOverwrite := !e.postPivot
  let r := efi.write e.store (eospaygEfiName name) content allowOverwrite k
  ({ e with store := r.1 }, r.2)

def varOverwrite (e : Efi σ) (name : Name) (content : Bytes) (k : Answers) :
    Efi σ × Except EfiError Unit :=
  let tname := eospaygEfiName name
  if e.postPivot then (e, .error (.attemptedOverwriteAfterPivot tname))
  else
    let r := efi.write e.store tname content true k
    ({ e with store := r.1 }, r.2)

def varDeleteFullname (e : Efi σ) (name : Name) (k : Answers) : Efi σ × Except EfiError Unit :=
  if ¬ HasPrefix name then (e, .error (.refusingToDelete name))
  else
    let r := efi.delete e.store name k
    ({ e with store := r.1 }, r.2)

def varDelete (e : Efi σ) (name : Name) (k : Answers) : Efi σ × Except EfiError Unit :=
  varDeleteFullname efi e (eospaygEfiName name) k

def varExists (e : Efi σ) (name : Name) (k : Answers) : Bool := efi.varExists e.store name k

/-- An expected size of -1 accepts any content. -/
def varReadFullname (e : Efi σ) (name : Name) (expectedSize : ℤ) (k : Answers) : ReadResult :=
  if expectedSize < -1 then ⟨.error .critical, -1⟩
  else if e.postPivot then ⟨.error (.cannotReadAfterPivot name), -1⟩
  else
    let ret := efi.read e.store name k
    match ret.content with
    | .ok _ =>
      if 0 ≤ expectedSize ∧ expectedSize ≠ ret.size then
        ⟨.error (.unexpectedSize ret.size expectedSize), ret.size⟩
      else ret
    | .error _ => ret

/-- The first byte as a truth value; the content of a variable is never empty. -/
def varReadFullnameBoolean (e : Efi σ) (name : Name) (k : Answers) : Except EfiError Bool :=
  (varReadFullname efi e name (-1) k).content.map (fun content => content.head? ≠ some 0)

def varRead (e : Efi σ) (name : Name) (expectedSize : ℤ) (k : Answers) : ReadResult :=
  varReadFullname efi e (eospaygEfiName name) expectedSize k

def listRewind (e : Efi σ) : Efi σ := { e with store := efi.listRewind e.store }

def listNext (e : Efi σ) : Efi σ × Option Name :=
  let r := efi.listNext e.store
  ({ e with store := r.1 }, r.2)

def clear (e : Efi σ) : Efi σ × Bool :=
  match efi.clear with
  | none => (e, false)
  | some c => ({ e with store := (c e.store).1 }, (c e.store).2)

inductive Call where
  | write (name : Name) (content : Bytes)
  | overwrite (name : Name) (content : Bytes)
  | delete (name : Name)
  | deleteFullname (name : Name)
  | read (name : Name) (expectedSize : ℤ)
  | readFullnameBoolean (name : Name)
  | exists_ (name : Name)
  | listRewind
  | listNext
  | clear
  | rootPivot

inductive Result where
  | done (success : Except EfiError Unit)
  | content (read : ReadResult)
  | boolean (read : Except EfiError Bool)
  | answer (yes : Bool)
  | name (next : Option Name)
  | nothing

def perform (e : Efi σ) (k : Answers) : Call → Efi σ × Result
  | .write name content => ((varWrite efi e name content k).1, .done (varWrite efi e name content k).2)
  | .overwrite name content =>
    ((varOverwrite efi e name content k).1, .done (varOverwrite efi e name content k).2)
  | .delete name => ((varDelete efi e name k).1, .done (varDelete efi e name k).2)
  | .deleteFullname name =>
    ((varDeleteFullname efi e name k).1, .done (varDeleteFullname efi e name k).2)
  | .read name expectedSize => (e, .content (varRead efi e name expectedSize k))
  | .readFullnameBoolean name => (e, .boolean (varReadFullnameBoolean efi e name k))
  | .exists_ name => (e, .answer (varExists efi e name k))
  | .listRewind => (listRewind efi e, .nothing)
  | .listNext => ((listNext efi e).1, .name (listNext efi e).2)
  | .clear => ((clear efi e).1, .answer (clear efi e).2)
  | .rootPivot => (rootPivot e, .nothing)

def after : List (Call × Answers) → Efi σ → Efi σ
  | [], e => e
  | c::cs, e => after cs (perform efi e c.2 c.1).1

def results : List (Call × Answers) → Efi σ → List Result
  | [], _ => []
  | c::cs, e => (perform efi e c.2 c.1).2::results cs (perform efi e c.2 c.1).1

end Public

/-- The files by full name, with their attribute bytes, and the names the
directory stream has still to give. -/
structure EfiVarFs where
  files : AList (fun _ : Name => Bytes)
  stream : List Name

def attr : Bytes := [7, 0, 0, 0]

/-- Opening for writing with `O_CREAT`, and `O_EXCL` if exclusive. A new file is
empty. -/
def openCreate (s : EfiVarFs) (name : Name) (exclusive : Bool) (k : Answers) :
    Except Errno EfiVarFs :=
  match k.openat with
  | some errno => .error errno
  | none =>
    if name ∈ s.files then (if exclusive then .error eexist else .ok s)
    else .ok { s with files := s.files.insert name [] }

/-- A write to an open efivarfs file sets the variable to the bytes written. The
immutable flag that is cleared before is no part of the contents; an open or an
unlink it still prevents is among the answers. -/
def efivarfsWrite (s : EfiVarFs) (name : Name) (content : Bytes) (allowOverwrite : Bool)
    (k : Answers) : EfiVarFs × Except EfiError Unit :=
  let tbuf := attr++content
  match openCreate s name (!allowOverwrite) k with
  | .error errno => (s, .error (.failedToOpen name errno))
  | .ok t =>
    match k.write with
    | .error errno => (t, .error (.failedToWrite name errno))
    | .ok limit =>
      let ret := min limit tbuf.length
      ({ t with files := t.files.insert name (tbuf.take ret) },
        if ret < tbuf.length then .error (.wroteOnly ret tbuf.length name) else .ok ())

def efivarfsDelete (s : EfiVarFs) (name : Name) (k : Answers) :
    EfiVarFs × Except EfiError Unit :=
  match k.unlinkat with
  | some errno => (s, .error (.failedToDelete name errno))
  | none =>
    if name ∈ s.files then ({ s with files := s.files.erase name }, .ok ())
    else (s, .error (.failedToDelete name enoent))

def efivarfsExists (s : EfiVarFs) (name : Name) (k : Answers) : Bool :=
  k.faccessat.isNone && decide (eospaygEfiName name ∈ s.files)

def efivarfsRead (s : EfiVarFs) (name : Name) (k : Answers) : ReadResult :=
  match k.openat, s.files.lookup name with
  | some errno, _ => ⟨.error (.failedToOpen name errno), -1⟩
  | none, none => ⟨.error (.failedToOpen name enoent), -1⟩
  | none, some file =>
    match k.readAttributes with
    | .error errno => ⟨.error (.failedToReadAttributes name errno), -1⟩
    | .ok limit =>
      let ret := min limit (min 4 file.length)
      if ret ≠ 4 then ⟨.error (.readOnlyAttributes ret name), -1⟩
      else match k.fstat with
      | some errno => ⟨.error (.fstatFailed name errno), -1⟩
      | none =>
        if file.length < 5 then ⟨.error (.hasLength name file.length), 0⟩
        else match k.readContents with
        | .error errno => ⟨.error (.failedToReadContents name errno), -1⟩
        | .ok limit =>
          let fsize := file.length-4
          let ret := min limit fsize
          if ret ≠ fsize then ⟨.error (.readBytes ret fsize name), -1⟩
          else ⟨.ok (file.drop 4), fsize⟩

def efivarfsListRewind (s : EfiVarFs) : EfiVarFs := { s with stream := s.files.keys }

def nextWithPrefix : List Name → Option Name × List Name
  | [] => (none, [])
  | name::rest => if HasPrefix name then (some name, rest) else nextWithPrefix rest

def efivarfsListNext (s : EfiVarFs) : EfiVarFs × Option Name :=
  ({ s with stream := (nextWithPrefix s.stream).2 }, (nextWithPrefix s.stream).1)

def efivarfsOps : EfiOps EfiVarFs where
  varExists := efivarfsExists
  read := efivarfsRead
  write := efivarfsWrite
  delete := efivarfsDelete
  listRewind := efivarfsListRewind
  listNext := efivarfsListNext
  clear := none

end EosPayg.EfiVariables
