import EosPayg.ManagerCode
import EosPayg.ManagerFiles

/-!
# A machine

Codes are entered, time passes, the wall clock jumps, and the power goes. When it may go,
and what else is counted, is left to those who look at a machine: they allow some of its
operations, and keep their accounts beside it.
-/

set_option autoImplicit false

namespace EosPayg.MachineRuns
open EosPayg.PaygCodes EosPayg.ManagerState EosPayg.ManagerCode EosPayg.ManagerFiles
  EosPayg.GuardedRun

structure World where
  manager : EpgManager
  clock : EpgClock

inductive Operation where
  | timePasses (clock : EpgClock)
  | wallclockTimeChanged (delta : Int64)
  | clearCode
  | addCode (codeStr : List UInt8)
  | save
  | powerCycle (clock : EpgClock) (files : Directory)

/-- The boot clock never runs backwards while the machine is up. -/
def World.step (hmac : Hmac) (w : World) : Operation → Option World
  | .timePasses clock => if w.clock.time ≤ clock.time then some { w with clock := clock } else none
  | .wallclockTimeChanged delta =>
    some { w with manager := (wallclockTimeChanged w.manager w.clock delta).1 }
  | .clearCode => some { w with manager := (clearCode w.manager w.clock).2.1 }
  | .addCode codeStr => some { w with manager := (addCode hmac w.manager w.clock codeStr).2.1 }
  | .save => some w
  | .powerCycle clock files => (initialise clock files).map (fun m => ⟨m, clock⟩)

structure Machine where
  world : World
  saved : SavedState
  credited : List UsedCode

/-- A boot finds the files of the last save, and the same key. -/
def Machine.Finds (s : Machine) : Operation → Prop
  | .powerCycle _ files => Holds files s.saved ∧ files .key = some s.world.manager.keyBytes
  | _ => True

instance (s : Machine) (op : Operation) : Decidable (s.Finds op) :=
  match op with
  | .powerCycle _ _ => inferInstanceAs (Decidable (_ ∧ _))
  | .timePasses _ => isTrue trivial
  | .wallclockTimeChanged _ => isTrue trivial
  | .clearCode => isTrue trivial
  | .addCode _ => isTrue trivial
  | .save => isTrue trivial

def credits (hmac : Hmac) (w : World) : Operation → List UsedCode
  | .addCode codeStr => (acceptedCode hmac w.manager w.clock codeStr).toList
  | _ => []

def Machine.account (hmac : Hmac) (s : Machine) (op : Operation) (w : World) : Machine where
  world := w
  saved := match op with
    | .save => saveState s.world.manager s.world.clock
    | _ => s.saved
  credited := s.credited++credits hmac s.world op

/-- The power goes at any moment outside a save; what was not saved is lost. -/
def Machine.step (hmac : Hmac) : Machine → Operation → Option Machine :=
  guarded (fun s op => (s.world.step hmac op).map (s.account hmac op)) Machine.Finds

def start (manager : EpgManager) (clock : EpgClock) : Machine :=
  ⟨⟨manager, clock⟩, saveState manager clock, []⟩

theorem step_some {hmac : Hmac} {s t : Machine} {op : Operation} :
    s.step hmac op = some t ↔
      s.Finds op ∧ ∃ w, s.world.step hmac op = some w ∧ t = s.account hmac op w := by
  rw [Machine.step,guarded_some,Option.map_eq_some_iff]
  simp only [eq_comm]

end EosPayg.MachineRuns
