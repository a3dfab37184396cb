import EosPayg.DebugFlags
import EosPayg.HardwareClock
import EosPayg.ServiceStartup

/-!
# The daemon from its start to its end

The main function runs straight through between a few loops: one until the secure
initialisation is done, one until the bus can be reached, the service itself, and
those it ends in. What is between the loops is one step; in a loop time passes, and
sources that are due are dispatched in any order with what the service does.
-/

set_option autoImplicit false

namespace EosPayg.DaemonMain
open EosPayg.EfiVariables EosPayg.DebugFlags EosPayg.SecurityLevel
open EosPayg.HardwareClock (setupRtcUpdater bootNew)
open EosPayg.ServiceStartup (Deployment EpgService Provider epgServiceSecureInit)

inductive EfiInitError where
  | failedToOpen (errno : Errno)
  | failedToOpenTwice (errno : Errno)
  | failedToOpenStream (errno : Errno)
  deriving DecidableEq

structure EfiInitAnswers where
  openDirectory : Option Errno
  openTwice : Option Errno
  fdopendir : Option Errno

/-- The descriptor of the directory is only kept when all three calls succeed. -/
def eospaygEfiInit (k : EfiInitAnswers) : Except EfiInitError Unit :=
  match k.openDirectory, k.openTwice, k.fdopendir with
  | some errno, _, _ => .error (.failedToOpen errno)
  | none, some errno, _ => .error (.failedToOpenTwice errno)
  | none, none, some errno => .error (.failedToOpenStream errno)
  | none, none, none => .ok ()

def ebadf : Errno := 9

def notInitialized : Answers :=
  ⟨some ebadf, .error ebadf, some ebadf, .error ebadf, .error ebadf, some ebadf, some ebadf⟩

structure Options where
  printLevel : Bool
  skipSbCheck : Bool

/-- What main asks its surroundings, in its order. -/
structure Answers where
  options : Option Options
  initrdRelease : Bool
  epgSecurityLevel : UInt8
  efiInit : EfiInitAnswers
  secureBootDebug : FlagAnswers
  secureBoot : EfiVariables.Answers
  activeDebug : FlagAnswers
  active : EfiVariables.Answers
  levelDebug : FlagAnswers
  levelRead : EfiVariables.Answers
  levelOverwrite : EfiVariables.Answers
  hwclock : HardwareClock.Answers
  serviceDebug : FlagAnswers
  serviceActive : EfiVariables.Answers
  watchdogDebug : FlagAnswers
  openWatchdog : Bool
  lsmDebug : FlagAnswers
  openLsm : Bool
  notifySocket : Bool
  sdNotify : Bool

/-- A power-off is also told where the id of its source is kept, if that is to be
cleared. -/
inductive Callback where
  | paygSystemPoweroff (clears : Bool)
  | pingWatchdog
  | sourceHwclockUpdate
  deriving DecidableEq

structure Source where
  id : ℕ
  due : ℕ
  interval : ℕ
  callback : Callback
  deriving DecidableEq

inductive Status where
  | success
  | failure
  | signal (n : ℕ)
  deriving DecidableEq

inductive Phase where
  | securing
  | connecting
  | running
  | spinning
  | pinging
  | exited (status : Status)
  deriving DecidableEq

structure Daemon where
  phase : Phase
  now : ℕ
  efi : Efi EfiVarFs
  efiReady : Bool
  legacyMode : Bool
  enforcingMode : Bool
  service : EpgService
  sources : List Source
  nextId : ℕ
  timeoutId : ℕ
  exitSignal : Option ℕ
  ret : Status
  watchdog : Bool
  lsm : Bool
  ready : Bool
  bootPartitionWritable : Bool
  poweroffs : ℕ
  lastPing : ℕ

inductive RunError where
  | signalled (n : ℕ)
  | other
  deriving DecidableEq

def timeoutPoweroffOnErrorMinutes : ℕ := 20

def gTimeoutAddSeconds (d : Daemon) (secs : ℕ) (callback : Callback) : Daemon :=
  { d with sources := d.sources++[⟨d.nextId, d.now+secs, secs, callback⟩], nextId := d.nextId+1 }

def gSourceRemove (d : Daemon) (id : ℕ) : Daemon :=
  { d with sources := d.sources.filter (fun s => s.id ≠ id) }

def poweroffOnError (d : Daemon) : Daemon :=
  gTimeoutAddSeconds d (timeoutPoweroffOnErrorMinutes*60) (.paygSystemPoweroff false)

def kernel (d : Daemon) (k : EfiVariables.Answers) : EfiVariables.Answers :=
  if d.efiReady then k else notInitialized

def flagKernel (d : Daemon) (k : FlagAnswers) : FlagAnswers :=
  ⟨kernel d k.debugExists,kernel d k.debugRead⟩

def started (store : EfiVarFs) : Daemon where
  phase := .securing
  now := 0
  efi := ⟨store,false⟩
  efiReady := false
  legacyMode := false
  enforcingMode := true
  service := epgServiceSecureInit ⟨[],[],none,none⟩ false
  sources := []
  nextId := 1
  timeoutId := 0
  exitSignal := none
  ret := .success
  watchdog := false
  lsm := false
  ready := false
  bootPartitionWritable := false
  poweroffs := 0
  lastPing := 0

def efiInit (k : EfiInitAnswers) (d : Daemon) : Daemon :=
  match eospaygEfiInit k with
  | .ok _ => { d with efiReady := true }
  | .error _ => poweroffOnError d

def checkEnforcing (k : Answers) (o : Options) (d : Daemon) : Daemon :=
  let secure := o.skipSbCheck ||
    paygGetSecureBootEnabled efivarfsOps d.efi (flagKernel d k.secureBootDebug)
      (kernel d k.secureBoot)
  let active :=
    paygGetEospaygActiveSet efivarfsOps d.efi (flagKernel d k.activeDebug) (kernel d k.active)
  { d with enforcingMode := secure && active }

def checkSecuritylevel (k : Answers) (d : Daemon) : Daemon :=
  if d.enforcingMode &&
      paygShouldCheckSecuritylevel efivarfsOps d.efi (flagKernel d k.levelDebug) then
    let r := testAndUpdateSecuritylevel efivarfsOps k.epgSecurityLevel d.efi
      (kernel d k.levelRead) (kernel d k.levelOverwrite)
    if r.2 then { d with efi := r.1 } else poweroffOnError { d with efi := r.1 }
  else d

def hwclockCallback : HardwareClock.Callback → Callback
  | .sourceHwclockUpdate => .sourceHwclockUpdate
  | .paygSystemPoweroff => .paygSystemPoweroff false

def addTimeouts (d : Daemon) (timeouts : List (ℕ × HardwareClock.Callback)) : Daemon :=
  timeouts.foldl (fun d t => gTimeoutAddSeconds d t.1 (hwclockCallback t.2)) d

def initramfs (k : Answers) (o : Options) (d : Daemon) : Daemon :=
  let d := checkSecuritylevel k (checkEnforcing k o (efiInit k.efiInit d))
  addTimeouts d (setupRtcUpdater bootNew d.enforcingMode k.hwclock).timeouts

def allowWritingToBootPartition (d : Daemon) (allowWrite : Bool) : Daemon :=
  { d with bootPartitionWritable := allowWrite }

/-- The variable is read before the root pivot, and never in the legacy mode. -/
def secureInitSync (k : Answers) (dep : Deployment) (d : Daemon) : Daemon :=
  let active := !d.legacyMode &&
    paygGetEospaygActiveSet efivarfsOps d.efi (flagKernel d k.serviceDebug)
      (kernel d k.serviceActive)
  { d with service := epgServiceSecureInit dep active }

def main (k : Answers) (dep : Deployment) (store : EfiVarFs) : Daemon :=
  let d := started store
  match k.options with
  | none => { d with phase := .exited .failure }
  | some o =>
    if o.printLevel then { d with phase := .exited .success }
    else
      let d := if k.initrdRelease then initramfs k o d else { d with legacyMode := true }
      secureInitSync k dep (allowWritingToBootPartition d true)

def leave (d : Daemon) : Daemon :=
  match d.exitSignal with
  | some n => { d with phase := .exited (.signal n) }
  | none =>
    if d.ret = .success ∧ d.watchdog then { d with phase := .pinging }
    else { d with phase := .exited d.ret }

/-- What follows the service, with the error it returned. Only the idle source of a
signal is told where its id is kept. -/
def finish (d : Daemon) (error : Option RunError) : Daemon :=
  let d := match error with
    | none => d
    | some (.signalled n) =>
      { gTimeoutAddSeconds d 0 (.paygSystemPoweroff true) with
        exitSignal := some n, timeoutId := d.nextId }
    | some .other => { poweroffOnError d with timeoutId := d.nextId, ret := .failure }
  let d := allowWritingToBootPartition d false
  if d.timeoutId ≠ 0 then { d with phase := .spinning } else leave d

def serviceRun (d : Daemon) : Daemon :=
  if d.enforcingMode then { d with phase := .running } else finish d none

def startWatchdog (d : Daemon) : Daemon :=
  { gTimeoutAddSeconds d 60 .pingWatchdog with watchdog := true, lastPing := d.now }

def notifyReady (k : Answers) (d : Daemon) : Daemon :=
  if ¬(k.notifySocket ∧ k.sdNotify) then { d with phase := .exited .failure }
  else { poweroffOnError d with ready := true, phase := .connecting, timeoutId := d.nextId }

def protect (k : Answers) (d : Daemon) : Daemon :=
  if d.enforcingMode && paygShouldUseLsm efivarfsOps d.efi (flagKernel d k.lsmDebug) then
    if k.openLsm then notifyReady k { d with lsm := true }
    else { d with phase := .exited .failure }
  else notifyReady k d

def afterSecureInit (k : Answers) (d : Daemon) : Daemon :=
  if d.legacyMode then serviceRun d
  else if d.enforcingMode &&
      paygShouldUseWatchdog efivarfsOps d.efi (flagKernel d k.watchdogDebug) then
    if k.openWatchdog then protect k (startWatchdog d)
    else { d with phase := .exited .failure }
  else protect k d

def busConnected (d : Daemon) : Daemon :=
  let d := { gSourceRemove d d.timeoutId with timeoutId := 0 }
  serviceRun { d with efi := rootPivot d.efi }

def paygSystemPoweroff (d : Daemon) (s : Source) (clears : Bool) : Daemon :=
  { d with
    poweroffs := d.poweroffs+1
    sources := d.sources.erase s
    timeoutId := if clears then 0 else d.timeoutId }

def again (d : Daemon) (s : Source) : Daemon :=
  { d with
    sources := d.sources.map (fun t => if t = s then { t with due := d.now+t.interval } else t) }

def dispatch (d : Daemon) (s : Source) : Daemon :=
  match s.callback with
  | .paygSystemPoweroff clears => paygSystemPoweroff d s clears
  | .pingWatchdog => again { d with lastPing := d.now } s
  | .sourceHwclockUpdate => again d s

/-- The loop that waits for the power-off looks at the id after every iteration. -/
def afterDispatch (d : Daemon) : Daemon :=
  if d.phase = .spinning ∧ d.timeoutId = 0 then leave d else d

def providerUnlockedCb (d : Daemon) (k : EfiVariables.Answers) : Daemon :=
  if d.service.eospaygActiveEfivar then
    { d with efi := (varDelete efivarfsOps d.efi (cString "active") (kernel d k)).1 }
  else d

inductive Event where
  | pass (secs : ℕ)
  | dispatch (s : Source)
  | service (op : ServiceStartup.Operation)
  | secureInitReturns
  | busConnected
  | unlocked (k : EfiVariables.Answers)
  | runReturns (error : Option RunError)

def Phase.alive : Phase → Bool
  | .exited _ => false
  | _ => true

/-- The service is only started when it is run, and only its exit ends it without an
error. -/
def step (k : Answers) (dep : Deployment) (d : Daemon) : Event → Option Daemon
  | .pass secs => if d.phase.alive then some { d with now := d.now+secs } else none
  | .dispatch s =>
    if d.phase.alive ∧ s ∈ d.sources ∧ s.due ≤ d.now then some (afterDispatch (dispatch d s))
    else none
  | .service op =>
    if d.phase.alive ∧ op ≠ .secureInitReturns ∧
        ((∃ registered, op = .startupAsync registered) → d.phase = .running) then
      (ServiceStartup.step dep d.service op).map (fun s => { d with service := s })
    else none
  | .secureInitReturns =>
    if d.phase = .securing then
      (ServiceStartup.step dep d.service .secureInitReturns).map
        (fun s => afterSecureInit k { d with service := s })
    else none
  | .busConnected => if d.phase = .connecting then some (busConnected d) else none
  | .unlocked answers =>
    if d.phase.alive ∧ d.service.connected then some (providerUnlockedCb d answers) else none
  | .runReturns error =>
    if d.phase = .running ∧ (error = none → 0 < d.service.exits) then some (finish d error)
    else none

end EosPayg.DaemonMain
