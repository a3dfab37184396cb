import EosPayg.SecurityLevel

/-!
# What the debug variable overrides

Each question the daemon asks before it enforces anything looks into the first
byte of a debug variable, whose bits override what the firmware says.
-/

set_option autoImplicit false

namespace EosPayg.DebugFlags
open EosPayg.EfiVariables EosPayg.SecurityLevel

def epgDebugSetGMessagesDebugAll : UInt8 := (1 : UInt8) <<< 0
def epgDebugSecureBootOff : UInt8 := (1 : UInt8) <<< 1
def epgDebugSecureBootOn : UInt8 := (1 : UInt8) <<< 2
def epgDebugEospaygActiveOff : UInt8 := (1 : UInt8) <<< 3
def epgDebugEospaygActiveOn : UInt8 := (1 : UInt8) <<< 4
def epgDebugDontUseWatchdog : UInt8 := (1 : UInt8) <<< 5
def epgDebugDontUseLsm : UInt8 := (1 : UInt8) <<< 6
def epgDebugSkipSecuritylevelCheck : UInt8 := (1 : UInt8) <<< 7

def epgDebugFlags : List UInt8 :=
  [epgDebugSetGMessagesDebugAll, epgDebugSecureBootOff, epgDebugSecureBootOn,
    epgDebugEospaygActiveOff, epgDebugEospaygActiveOn, epgDebugDontUseWatchdog,
    epgDebugDontUseLsm, epgDebugSkipSecuritylevelCheck]

def globalVariableGuid : Name := cString "8be4df61-93ca-11d2-aa0d-00e098032b8c"

structure FlagAnswers where
  debugExists : Answers
  debugRead : Answers

def hasFlag (flags flag : UInt8) : Bool := flags &&& flag != 0

def copyFlags (byte : UInt8) : UInt8 :=
  epgDebugFlags.foldl (fun flags flag => if hasFlag byte flag then flags ||| flag else flags) 0

section Questions

variable {σ : Type} (efi : EfiOps σ) (e : Efi σ)

def readEospaygDebug (k : FlagAnswers) : UInt8 :=
  if varExists efi e (cString "debug") k.debugExists then
    match (varRead efi e (cString "debug") (-1) k.debugRead).content with
    | .error _ => 0
    | .ok content => copyFlags (content.headD 0)
  else 0

def eospaygEfiSecurebootActive (k : Answers) : Bool :=
  match varReadFullnameBoolean efi e (fullEfiName globalVariableGuid (cString "SecureBoot")) k with
  | .ok active => active
  | .error _ => false

/-- Where both are set, off goes before on. -/
def paygGetSecureBootEnabled (k : FlagAnswers) (secureBoot : Answers) : Bool :=
  let flags := readEospaygDebug efi e k
  if hasFlag flags epgDebugSecureBootOff then false
  else if hasFlag flags epgDebugSecureBootOn then true
  else eospaygEfiSecurebootActive efi e secureBoot

def paygGetEospaygActiveSet (k : FlagAnswers) (active : Answers) : Bool :=
  let flags := readEospaygDebug efi e k
  if hasFlag flags epgDebugEospaygActiveOff then false
  else if hasFlag flags epgDebugEospaygActiveOn then true
  else varExists efi e (cString "active") active

def paygShouldUseWatchdog (k : FlagAnswers) : Bool :=
  !hasFlag (readEospaygDebug efi e k) epgDebugDontUseWatchdog

def paygShouldUseLsm (k : FlagAnswers) : Bool :=
  !hasFlag (readEospaygDebug efi e k) epgDebugDontUseLsm

def paygShouldCheckSecuritylevel (k : FlagAnswers) : Bool :=
  !hasFlag (readEospaygDebug efi e k) epgDebugSkipSecuritylevelCheck

end Questions

theorem copyFlags_eq (byte : UInt8) : copyFlags byte = byte := by
  have h : ∀ n : Fin 256, copyFlags (UInt8.ofFin n) = UInt8.ofFin n := by decide +kernel
  exact h byte.toFin

end EosPayg.DebugFlags
