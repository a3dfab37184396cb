import EosPayg.ManagerFiles
import EosPayg.ProviderSelection

/-!
# Starting the service

Before the root pivot the service looks for an enabled provider among the plugins
it can trust; when it is started it looks again unless it has one, and falls back
to the manager where that is safe. From then on it holds the service while the
provider is enabled.
-/

set_option autoImplicit false

namespace EosPayg.ServiceStartup
open EosPayg.ProviderLoader EosPayg.ProviderSelection EosPayg.GuardedRun
open EosPayg.ManagerState (GIOError epgManagerInit)
open EosPayg.ManagerFiles (loadKey)
open EosPayg.MultiTask (maxUint)

inductive Provider where
  | plugin (i : ℕ)
  | epgManager
  deriving DecidableEq

inductive ServiceError where
  | noProvider
  | configFile
  | manager (error : GIOError)
  | register
  deriving DecidableEq

/-- The plugins that are found before the root pivot and after it, what the
configuration says about `Enabled`, if it can be read, and what is in the manager's key
file. -/
structure Deployment where
  securePlugins : List Plugin
  plugins : List Plugin
  configEnabled : Option Bool
  keyFile : Option (List UInt8)
  deriving DecidableEq

/-- Where the service is: in the loop of its secure initialisation, behind it, or
in one of the callbacks of its startup. -/
inductive Stage where
  | securing
  | secured
  | loading
  | creatingManager (enabled : Bool)
  | complete
  deriving DecidableEq

structure EpgService where
  stage : Stage
  eospaygActiveEfivar : Bool
  loader : Loader
  provider : Option Provider
  providerEnabled : Bool
  registered : Bool
  connected : Bool
  holding : Bool
  holds : ℕ
  exits : ℕ
  startup : List (Except ServiceError Unit)
  deriving DecidableEq

def gTaskReturn (s : EpgService) (result : Except ServiceError Unit) : EpgService :=
  { s with stage := .complete, startup := s.startup++[result] }

def setProvider (s : EpgService) (provider : Provider) : EpgService :=
  { s with provider := some provider, providerEnabled := true }

def providerNotifyEnabledCb (s : EpgService) : EpgService :=
  let enabled := s.providerEnabled
  let s :=
    if enabled && !s.holding then { s with holds := s.holds+1 }
    else if !enabled && s.holding then { s with holds := s.holds-1 }
    else s
  { s with holding := enabled }

/-- Also connects to the provider when the bus name could not be registered. -/
def epgServiceStartupComplete (s : EpgService) (registered : Bool) : EpgService :=
  let s :=
    if registered then gTaskReturn { s with registered := true } (.ok ())
    else gTaskReturn s (.error .register)
  providerNotifyEnabledCb { s with connected := true }

def epgServiceSecureInit (d : Deployment) (active : Bool) : EpgService where
  stage := .securing
  eospaygActiveEfivar := active
  loader := getFirstEnabledAsync d.securePlugins
  provider := none
  providerEnabled := false
  registered := false
  connected := false
  holding := false
  holds := 0
  exits := 0
  startup := []

/-- A failure of the loader is only warned about. -/
def secureInitReturns (s : EpgService) (result : Except GError (Option ℕ)) : EpgService :=
  match result with
  | .ok (some i) => { setProvider s (.plugin i) with stage := .secured }
  | _ => { s with stage := .secured }

def epgServiceStartupAsync (d : Deployment) (s : EpgService) (registered : Bool) : EpgService :=
  if s.provider.isSome then epgServiceStartupComplete s registered
  else { s with stage := .loading, loader := getFirstEnabledAsync d.plugins }

def providerGetFirstEnabledCb (d : Deployment) (s : EpgService)
    (result : Except GError (Option ℕ)) (registered : Bool) : EpgService :=
  match result with
  | .ok (some i) => epgServiceStartupComplete (setProvider s (.plugin i)) registered
  | _ =>
    if s.eospaygActiveEfivar then gTaskReturn s (.error .noProvider)
    else match d.configEnabled with
    | none => gTaskReturn s (.error .configFile)
    | some enabled => { s with stage := .creatingManager enabled }

/-- A manager whose initialisation does not fail says whether it is enabled: it is no
longer when it has found no key, whatever the configuration says. -/
def epgManagerNewFinish (d : Deployment) (enabled : Bool) (error : Option GIOError) :
    Except GIOError Bool :=
  match error with
  | some e => .error e
  | none => .ok (loadKey (epgManagerInit enabled) d.keyFile).2.1.enabled

def managerNewCb (s : EpgService) (manager : Except GIOError Bool) (registered : Bool) :
    EpgService :=
  match manager with
  | .error e => gTaskReturn s (.error (.manager e))
  | .ok enabled =>
    if enabled then epgServiceStartupComplete (setProvider s .epgManager) registered
    else
      let s := gTaskReturn s (.ok ())
      { s with exits := s.exits+1 }

def enabledChanged (s : EpgService) (enabled : Bool) : EpgService :=
  let s := { s with providerEnabled := enabled }
  if s.connected then providerNotifyEnabledCb s else s

inductive Operation where
  | loader (op : ProviderLoader.Operation)
  | secureInitReturns
  | startupAsync (registered : Bool)
  | getFirstEnabledCb (registered : Bool)
  | managerNewCb (error : Option GIOError) (registered : Bool)
  | enabledChanged (enabled : Bool)
  deriving DecidableEq

/-- Once it is initialised the manager does not change whether it is enabled. -/
def step (d : Deployment) (s : EpgService) : Operation → Option EpgService
  | .loader op =>
    if s.stage = .securing ∨ s.stage = .loading then
      (ProviderLoader.step s.loader op).map (fun l => { s with loader := l })
    else none
  | .secureInitReturns =>
    if s.stage = .securing then s.loader.returned.head?.map (secureInitReturns s) else none
  | .startupAsync registered =>
    if s.stage = .secured then some (epgServiceStartupAsync d s registered) else none
  | .getFirstEnabledCb registered =>
    if s.stage = .loading then
      s.loader.returned.head?.map (fun r => providerGetFirstEnabledCb d s r registered)
    else none
  | .managerNewCb error registered =>
    match s.stage with
    | .creatingManager enabled =>
      some (managerNewCb s (epgManagerNewFinish d enabled error) registered)
    | _ => none
  | .enabledChanged enabled =>
    match s.provider with
    | some (.plugin _) => some (enabledChanged s enabled)
    | _ => none

def Operation.starts : Operation → Bool
  | .enabledChanged _ => false
  | _ => true

theorem managerNewFinish_ok (d : Deployment) (enabled : Bool) :
    epgManagerNewFinish d enabled none = .ok (enabled && d.keyFile.isSome) := by
  unfold epgManagerNewFinish
  cases d.keyFile with
  | none =>
    rw [Option.isSome_none,Bool.and_false]
    rfl
  | some bytes =>
    rw [Option.isSome_some,Bool.and_true]
    rfl

/-- Holds and releases are paired by what the service remembers of the last one. -/
theorem notifyEnabled_eq (s : EpgService) (h : s.holds = if s.holding then 1 else 0) :
    providerNotifyEnabledCb s =
      { s with holding := s.providerEnabled, holds := if s.providerEnabled then 1 else 0 } := by
  unfold providerNotifyEnabledCb
  cases he : s.providerEnabled <;> cases hh : s.holding <;> simp_all

structure Held (s : EpgService) : Prop where
  holds : s.holds = if s.holding then 1 else 0
  holding : s.holding = (s.connected && s.providerEnabled)

theorem startupComplete_eq (s : EpgService) (registered : Bool) (h : Held s) :
    epgServiceStartupComplete s registered =
      { s with
        stage := .complete
        registered := s.registered || registered
        connected := true
        holding := s.providerEnabled
        holds := if s.providerEnabled then 1 else 0
        startup := s.startup++[if registered then .ok () else .error .register] } := by
  unfold epgServiceStartupComplete
  dsimp only
  rw [notifyEnabled_eq]
  · cases registered with
    | false => simp [gTaskReturn]
    | true => simp [gTaskReturn]
  · cases registered <;> exact h.holds

theorem startupComplete_held (s : EpgService) (registered : Bool) (h : Held s) :
    Held (epgServiceStartupComplete s registered) := by
  rw [startupComplete_eq s registered h]
  exact ⟨rfl,(Bool.true_and _).symm⟩

theorem enabledChanged_held (s : EpgService) (enabled : Bool) (h : Held s) :
    Held (enabledChanged s enabled) := by
  by_cases hc : s.connected = true
  · have he : enabledChanged s enabled =
        providerNotifyEnabledCb { s with providerEnabled := enabled } := if_pos hc
    rw [he,notifyEnabled_eq { s with providerEnabled := enabled } h.holds]
    exact ⟨rfl,by simp [hc]⟩
  · have he : enabledChanged s enabled = { s with providerEnabled := enabled } := if_neg hc
    rw [he]
    refine ⟨h.holds,?_⟩
    show s.holding = (s.connected && enabled)
    rw [h.holding,Bool.eq_false_of_not_eq_true hc,Bool.false_and,Bool.false_and]

theorem enabledChanged_keeps (s : EpgService) (enabled : Bool) :
    (enabledChanged s enabled).stage = s.stage ∧
      (enabledChanged s enabled).startup = s.startup ∧
      (enabledChanged s enabled).provider = s.provider ∧
      (enabledChanged s enabled).exits = s.exits := by
  unfold enabledChanged providerNotifyEnabledCb
  dsimp only
  split_ifs <;> exact ⟨rfl,rfl,rfl,rfl⟩

end EosPayg.ServiceStartup
