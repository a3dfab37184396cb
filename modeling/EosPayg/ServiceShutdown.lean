import EosPayg.Lifecycle
import EosPayg.Startup

/-!
# The service while it shuts down

The service sets its provider once the manager is initialised, and takes the
readings of both clocks at that moment. From then on it takes codes, and hands
every jump of the wall clock on to the manager. Shutdown waits in the main loop,
which goes on dispatching all of these.
-/

set_option autoImplicit false

namespace EosPayg.ServiceShutdown
open EosPayg.PaygCodes EosPayg.ManagerState EosPayg.ManagerCode EosPayg.ManagerFiles
  EosPayg.SaveQueue EosPayg.LoadCallback EosPayg.GuardedRun EosPayg.RecordList EosPayg.Lifecycle
open EosPayg.Initialisation (Load Accounts Initialised performAll outstanding setReported
  performAll_extends weaken_accounts)
open EosPayg.InitTask (initAsync_accounts step_accounts reported_accounts)
open EosPayg.Startup (loadNow saveNow savedFiles hourLater)
open EosPayg.Shutdown (internalSaveStateCb internalSaveStateCb_kept shutdownAsync
  wallclockTimeChanged_serves)

structure Readings where
  realtimeSecs : Int64
  boottimeSecs : Int64
  deriving DecidableEq

/-- The manager from its construction on, and the readings of the clocks taken
last; there are none before the provider is set. -/
structure EpgService where
  manager : Lifecycle.System
  clockSecsV0 : Option Readings

def initialised (s : Initialisation.System) : Bool := s.task.returned.any Except.isOk

def clockJumpDelta (v0 v1 : Readings) : Int64 :=
  (v1.realtimeSecs-v0.realtimeSecs)-(v1.boottimeSecs-v0.boottimeSecs)

/-- What is done about two readings of the clocks, and the readings that are kept. -/
def clockJumpCb (self : EpgManager) (clock : EpgClock) (v0 v1 : Readings) : Outcome × Readings :=
  if clockJumpDelta v0 v1 ≠ 0 then
    (wallclockTimeChanged self clock (clockJumpDelta v0 v1),v1)
  else ((self,[]),v1)

def EpgService.clockJump (s : EpgService) (v0 v1 : Readings) : EpgService :=
  let called := clockJumpCb s.manager.core.manager s.manager.core.clock v0 v1
  { manager := serve s.manager called.1, clockSecsV0 := some called.2 }

inductive Operation where
  | core (op : Initialisation.Operation)
  | checkExpired
  | setProvider (v0 : Readings)
  | addCode (codeStr : List UInt8)
  | clearCode
  | clockJump (v1 : Readings)
  | shutdown
  deriving DecidableEq

def dispatch (hmac : Hmac) (s : EpgService) (op : Lifecycle.Operation) : Option EpgService :=
  (Lifecycle.step hmac s.manager op).map (fun m => { s with manager := m })

def step (hmac : Hmac) (s : EpgService) : Operation → Option EpgService
  | .core op => dispatch hmac s (.core op)
  | .checkExpired => dispatch hmac s .checkExpired
  | .setProvider v0 =>
    if s.clockSecsV0 = none ∧ initialised s.manager.core = true ∧
        s.manager.core.manager.enabled = true then
      some { s with clockSecsV0 := some v0 }
    else none
  | .addCode codeStr => if s.clockSecsV0 = none then none else dispatch hmac s (.addCode codeStr)
  | .clearCode => if s.clockSecsV0 = none then none else dispatch hmac s .clearCode
  | .clockJump v1 => s.clockSecsV0.map (fun v0 => s.clockJump v0 v1)
  | .shutdown =>
    if s.clockSecsV0 = none ∨ s.manager.requests ≠ [] then none
    else dispatch hmac s .shutdown

def constructed (enabled : Bool) (clock : EpgClock) (files : Directory) : EpgService where
  manager := Lifecycle.constructed enabled clock files
  clockSecsV0 := none

/-- The expiry time and the used codes are what they were, and no save has been
started since. -/
structure Frozen (s t : EpgService) : Prop where
  expiryTimeSecs : t.manager.core.manager.expiryTimeSecs = s.manager.core.manager.expiryTimeSecs
  usedCodes : t.manager.core.manager.usedCodes = s.manager.core.manager.usedCodes
  saves : t.manager.core.saves.length = s.manager.core.saves.length

def NoJump (s : EpgService) : Operation → Prop
  | .clockJump v1 => ∀ v0 ∈ s.clockSecsV0, clockJumpDelta v0 v1 = 0
  | _ => True

structure Loaded (s : Initialisation.System) : Prop where
  loads : ∀ l ∈ s.loads, l.isCalled = true
  deletions : ∀ d ∈ s.deletions, d.status.isCalled = true

def Effect.ofBus : Effect → Bool
  | .save _ forTask => !forTask
  | e => Effect.outside e

theorem ofBus_outside (effects : List Effect) (h : effects.all Effect.outside = true) :
    effects.all Effect.ofBus = true := by
  rw [List.all_eq_true] at h ⊢
  intro e he
  have ho := h e he
  cases e <;> first | exact ho | cases ho

theorem setExpiryTime_ofBus (self : EpgManager) (clock : EpgClock) (nowSecs spanSecs : UInt64) :
    (setExpiryTime self clock false false nowSecs spanSecs).2.all Effect.ofBus = true := by
  rcases setExpiryTime_effects self clock false false nowSecs spanSecs with ⟨before,hb,he⟩
  rw [he,List.all_append,ofBus_outside _ (outside_ofTimer before hb)]
  split_ifs <;> rfl

theorem clearRateLimiting_ofBus (self : EpgManager) :
    (clearRateLimiting self).2.all Effect.ofBus = true := by
  unfold clearRateLimiting
  split_ifs <;> rfl

theorem internalSave_ofBus (self : EpgManager) (clock : EpgClock) :
    (internalSave self clock false).2.all Effect.ofBus = true := rfl

theorem andThen_ofBus {first : Outcome} {next : EpgManager → Outcome}
    (h : first.2.all Effect.ofBus = true) (h' : (next first.1).2.all Effect.ofBus = true) :
    (andThen first next).2.all Effect.ofBus = true := by
  rw [andThen_effects,List.all_append,h,h']
  rfl

theorem addCode_ofBus (hmac : Hmac) (self : EpgManager) (clock : EpgClock)
    (codeStr : List UInt8) : (addCode hmac self clock codeStr).2.2.all Effect.ofBus = true := by
  cases h : acceptedCode hmac self clock codeStr with
  | none =>
    rcases addCode_refused_effects hmac self clock codeStr h with he | he <;> rw [he] <;> rfl
  | some used =>
    rw [addCode_accepted hmac self clock codeStr used h]
    apply andThen_ofBus
    · exact andThen_ofBus (setExpiryTime_ofBus _ _ _ _) (clearRateLimiting_ofBus _)
    · exact internalSave_ofBus _ _

theorem clearCode_ofBus (self : EpgManager) (clock : EpgClock) :
    (clearCode self clock).2.2.all Effect.ofBus = true := by
  rcases clearCode_cases self clock with ⟨he,hn⟩ | h
  · rw [clearCode_ok self clock he hn]
    apply andThen_ofBus
    · apply andThen_ofBus
      · unfold zeroExpiryTime
        split_ifs <;> rfl
      · unfold clearExpiryTimer
        split <;> rfl
    · exact internalSave_ofBus _ _
  · rw [h]
    rfl

theorem wallclockTimeChanged_ofBus (self : EpgManager) (clock : EpgClock) (delta : Int64) :
    (wallclockTimeChanged self clock delta).2.all Effect.ofBus = true := by
  unfold wallclockTimeChanged
  by_cases hz : delta = 0
  · rw [if_pos hz]
    rfl
  · rw [if_neg hz,consumeJump_eq]
    split_ifs
    · exact andThen_ofBus (setExpiryTime_ofBus _ _ _ _) (internalSave_ofBus _ _)
    · exact andThen_ofBus rfl (internalSave_ofBus _ _)
    · exact andThen_ofBus rfl (internalSave_ofBus _ _)

theorem checkExpiredCb_ofBus (self : EpgManager) (clock : EpgClock) :
    (checkExpiredCb self clock).2.all Effect.ofBus = true := by
  unfold checkExpiredCb
  split_ifs <;> rfl

theorem performAll_ofBus (effects : List Effect) (s : Initialisation.System)
    (h : effects.all Effect.ofBus = true) :
    (performAll s effects).loads = s.loads ∧ (performAll s effects).deletions = s.deletions := by
  induction effects generalizing s with
  | nil => exact ⟨rfl,rfl⟩
  | cons e es ih =>
    rw [List.all_cons,Bool.and_eq_true] at h
    obtain ⟨hl,hd⟩ := ih (Initialisation.perform s e) h.2
    show (performAll (Initialisation.perform s e) es).loads = _ ∧
      (performAll (Initialisation.perform s e) es).deletions = _
    rw [hl,hd]
    cases e with
    | loadContents file => cases h.1
    | deleteFile file => cases h.1
    | _ => exact ⟨rfl,rfl⟩

theorem performAll_saves_length (effects : List Effect) (s : Initialisation.System) :
    (performAll s effects).saves.length = s.saves.length+effects.countP Effect.isSave := by
  rw [(performAll_saves effects s).1,List.length_append,List.length_reverse,savesStarted_length]

structure Still (s s' : Initialisation.System) : Prop where
  loads : s'.loads = s.loads
  deletions : s'.deletions = s.deletions
  saves : s'.saves.length = s.saves.length
  expiryTimeSecs : s'.manager.expiryTimeSecs = s.manager.expiryTimeSecs
  usedCodes : s'.manager.usedCodes = s.manager.usedCodes
  cancelled : s'.manager.cancelled = s.manager.cancelled

theorem performAll_still (s : Initialisation.System) (m : EpgManager) (effects : List Effect)
    (hb : effects.all Effect.ofBus = true) (hs : effects.countP Effect.isSave = 0)
    (hx : m.expiryTimeSecs = s.manager.expiryTimeSecs) (hu : m.usedCodes = s.manager.usedCodes)
    (hc : m.cancelled = s.manager.cancelled) :
    Still s (performAll { s with manager := m } effects) := by
  obtain ⟨hl,hd⟩ := performAll_ofBus effects { s with manager := m } hb
  have hm := (performAll_extends effects { s with manager := m }).manager
  have hlen := performAll_saves_length effects { s with manager := m }
  constructor
  · exact hl
  · exact hd
  · rw [hlen,hs]
    rfl
  · rw [hm]
    exact hx
  · rw [hm]
    exact hu
  · rw [hm]
    exact hc

theorem loads_loaded {s s' : Initialisation.System} (h : Loaded s) (hl : s'.loads = s.loads)
    (hd : s'.deletions = s.deletions) : Loaded s' := by
  constructor
  · rw [hl]
    exact h.loads
  · rw [hd]
    exact h.deletions

/-- With nothing left to load, the steps of initialisation are those of the
operations of saves. -/
theorem core_still {s s' : Initialisation.System} {op : Initialisation.Operation}
    (h : Loaded s) (hne : ∀ i, op ≠ .saveCb i) (hs : Initialisation.step s op = some s') :
    Still s s' := by
  have hload (i : ℕ) (l : Load) (hi : s.loads[i]? = some l) : l.status = .called := by
    simpa [Load.isCalled] using h.loads l (List.mem_of_getElem? hi)
  have hdel (i : ℕ) (d : Initialisation.Deletion) (hi : s.deletions[i]? = some d) :
      d.status.isCalled = true := h.deletions d (List.mem_of_getElem? hi)
  cases Initialisation.step_cases s s' op hs with
  | timePasses clock _ => exact ⟨rfl,rfl,rfl,rfl,rfl,rfl⟩
  | read i l hi hf =>
    rw [hload i l hi] at hf
    cases hf
  | readFails i error l hi hf he =>
    rw [hload i l hi] at hf
    cases hf
  | loadCb i l result hi hl =>
    rw [hload i l hi] at hl
    cases hl
  | delete i d hi hf =>
    have := hdel i d hi
    rw [hf] at this
    cases this
  | deleteFails i error d hi hf =>
    have := hdel i d hi
    rw [hf] at this
    cases this
  | deleteCb i d error hi hd =>
    have := hdel i d hi
    rw [hd] at this
    cases this
  | takeEffect i f sv sv' files' hi he => exact ⟨rfl,rfl,List.length_set,rfl,rfl,rfl⟩
  | fail i f error sv sv' hi he => exact ⟨rfl,rfl,List.length_set,rfl,rfl,rfl⟩
  | opCb i f sv sv' hi he => exact ⟨rfl,rfl,List.length_set,rfl,rfl,rfl⟩
  | saveCb i sv result hi hresult hr => exact absurd rfl (hne i)

theorem report_still (s : Lifecycle.System) (i : ℕ) (sv : Save) (result : Except GIOError Unit) :
    Still s.core (report s i sv result).core := by
  obtain ⟨hx,hu,hc⟩ := internalSaveStateCb_kept s.core.manager result
  have hset : Still s.core (setReported s.core i sv (internalSaveStateCb s.core.manager result).1) :=
    ⟨rfl,rfl,List.length_set,hx,hu,hc⟩
  unfold report
  cases sv.forShutdown with
  | true => exact ⟨rfl,rfl,List.length_set,rfl,rfl,rfl⟩
  | false =>
    show Still s.core (performAll (setReported s.core i sv _) (Initialisation.reportEffects _ _))
    cases sv.forTask with
    | false => exact hset
    | true => cases result <;> exact ⟨rfl,rfl,List.length_set,hx,hu,hc⟩

theorem dispatch_some {hmac : Hmac} {s s' : EpgService} {op : Lifecycle.Operation}
    (hs : dispatch hmac s op = some s') :
    ∃ m, Lifecycle.step hmac s.manager op = some m ∧ s' = { s with manager := m } := by
  obtain ⟨m,hm,rfl⟩ := Option.map_eq_some_iff.mp hs
  exact ⟨m,hm,rfl⟩

theorem core_loaded {hmac : Hmac} {s s' : Lifecycle.System} {op : Initialisation.Operation}
    (h : Loaded s.core) (hs : Lifecycle.step hmac s (.core op) = some s') :
    Still s.core s'.core := by
  rcases core_cases hs with ⟨i,sv,result,-,hi,-,hr,rfl⟩ | ⟨hne,core,hcore,rfl⟩
  · exact report_still s i sv result
  · exact core_still h hne hcore

theorem serve_loaded {s : Lifecycle.System} (h : Loaded s.core) (out : Outcome)
    (hb : out.2.all Effect.ofBus = true) : Loaded (serve s out).core := by
  obtain ⟨hl,hd⟩ := performAll_ofBus out.2 { s.core with manager := out.1 } hb
  exact loads_loaded h hl hd

theorem startShutdown_loaded {s : Lifecycle.System} (h : Loaded s.core) :
    Loaded (startShutdown s).core := by
  unfold startShutdown
  dsimp only
  cases (shutdownAsync s.core.manager).2 <;> exact ⟨h.loads,h.deletions⟩

/-- Before the provider is set the task of initialisation is accounted for; after
it there is nothing left to load. -/
structure Ready (s : EpgService) : Prop where
  starting : s.clockSecsV0 = none → Accounts s.manager.core 0 0
  loaded : s.clockSecsV0 ≠ none → Loaded s.manager.core

theorem core_accounts {hmac : Hmac} {s s' : Lifecycle.System} {op : Initialisation.Operation}
    (h : Accounts s.core 0 0) (hs : Lifecycle.step hmac s (.core op) = some s') :
    Accounts s'.core 0 0 := by
  rcases core_cases hs with ⟨i,sv,result,-,hi,hresult,hr,rfl⟩ | ⟨hne,core,hcore,rfl⟩
  · unfold report
    cases sv.forShutdown with
    | true =>
      exact weaken_accounts (reported_accounts h i sv s.core.manager hi hr) (Nat.zero_le _) le_rfl
    | false =>
      have hstep : Initialisation.step s.core (.saveCb i) =
          some (Initialisation.saveCb s.core i sv result) := by
        simp [Initialisation.step,hi,hresult,hr]
      exact step_accounts h hstep
  · exact step_accounts h hcore

theorem initialised_loaded {s : Initialisation.System} (h : Accounts s 0 0)
    (hd : initialised s = true) : Loaded s := by
  obtain ⟨r,hr,hok⟩ := List.any_eq_true.mp hd
  have hi : Initialised s := by
    cases r with
    | ok v => exact ⟨v,hr⟩
    | error e => cases hok
  have howed := h.owed
  have hpending := (h.finished hi).1
  unfold outstanding at howed
  constructor
  · have hz : s.loads.countP (fun l => !l.isCalled) = 0 := by omega
    intro l hl
    simpa using List.countP_eq_zero.mp hz l hl
  · have hz : s.deletions.countP (fun d => !d.status.isCalled) = 0 := by omega
    intro d hd
    simpa using List.countP_eq_zero.mp hz d hd

theorem clockJumpCb_readings (self : EpgManager) (clock : EpgClock) (v0 v1 : Readings) :
    (clockJumpCb self clock v0 v1).2 = v1 := by
  unfold clockJumpCb
  split_ifs <;> rfl

theorem clockJumpCb_ofBus (self : EpgManager) (clock : EpgClock) (v0 v1 : Readings) :
    (clockJumpCb self clock v0 v1).1.2.all Effect.ofBus = true := by
  unfold clockJumpCb
  split_ifs
  · exact wallclockTimeChanged_ofBus _ _ _
  · rfl

theorem clockJumpCb_manager (self : EpgManager) (clock : EpgClock) (v0 v1 : Readings) :
    (clockJumpCb self clock v0 v1).1.1 =
      (wallclockTimeChanged self clock (clockJumpDelta v0 v1)).1 := by
  unfold clockJumpCb
  by_cases hz : clockJumpDelta v0 v1 = 0
  · rw [if_neg (not_not.mpr hz),hz,wallclockTimeChanged_state,if_pos rfl]
  · rw [if_pos hz]

theorem clockJump_loaded {s : EpgService} (h : Loaded s.manager.core) (v0 v1 : Readings) :
    Loaded (s.clockJump v0 v1).manager.core := serve_loaded h _ (clockJumpCb_ofBus _ _ _ _)

theorem step_ready {hmac : Hmac} {s s' : EpgService} {op : Operation} (h : Ready s)
    (hs : step hmac s op = some s') : Ready s' := by
  have hset (m : Lifecycle.System) (hn : s.clockSecsV0 ≠ none) (hm : Loaded m.core) :
      Ready { s with manager := m } := ⟨fun hz => absurd hz hn,fun _ => hm⟩
  cases op with
  | core op =>
    obtain ⟨m,hm,rfl⟩ := dispatch_some hs
    refine ⟨fun hz => core_accounts (h.starting hz) hm,fun hn => ?_⟩
    have hstill := core_loaded (h.loaded hn) hm
    exact loads_loaded (h.loaded hn) hstill.loads hstill.deletions
  | checkExpired =>
    obtain ⟨m,hm,rfl⟩ := dispatch_some hs
    cases hm
    refine ⟨fun hz => ?_,fun hn => serve_loaded (h.loaded hn) _ (checkExpiredCb_ofBus _ _)⟩
    have ha := h.starting hz
    show Accounts (performAll _ (checkExpiredCb s.manager.core.manager s.manager.core.clock).2) 0 0
    unfold checkExpiredCb
    split_ifs <;> exact ⟨ha.live,ha.owed,ha.bounded,ha.finished⟩
  | setProvider v0 =>
    simp only [step] at hs
    split_ifs at hs with hg
    cases hs
    exact ⟨nofun,fun _ => initialised_loaded (h.starting hg.1) hg.2.1⟩
  | addCode codeStr =>
    simp only [step] at hs
    split_ifs at hs with hg
    obtain ⟨m,hm,rfl⟩ := dispatch_some hs
    cases hm
    exact hset _ hg (serve_loaded (h.loaded hg) _ (addCode_ofBus hmac _ _ codeStr))
  | clearCode =>
    simp only [step] at hs
    split_ifs at hs with hg
    obtain ⟨m,hm,rfl⟩ := dispatch_some hs
    cases hm
    exact hset _ hg (serve_loaded (h.loaded hg) _ (clearCode_ofBus _ _))
  | clockJump v1 =>
    obtain ⟨v0,hv,rfl⟩ := Option.map_eq_some_iff.mp hs
    have hn : s.clockSecsV0 ≠ none := by
      rw [hv]
      exact nofun
    exact ⟨nofun,fun _ => clockJump_loaded (h.loaded hn) v0 v1⟩
  | shutdown =>
    simp only [step] at hs
    split_ifs at hs with hg
    obtain ⟨m,hm,rfl⟩ := dispatch_some hs
    cases hm
    have hn : s.clockSecsV0 ≠ none := fun hz => hg (Or.inl hz)
    exact hset _ hn (startShutdown_loaded (h.loaded hn))

theorem constructed_ready (enabled : Bool) (clock : EpgClock) (files : Directory) :
    Ready (constructed enabled clock files) :=
  ⟨fun _ => initAsync_accounts (epgManagerInit enabled) clock files,fun h => absurd rfl h⟩

structure Stopped (s : EpgService) : Prop where
  provider : s.clockSecsV0 ≠ none
  loaded : Loaded s.manager.core
  cancelled : s.manager.core.manager.cancelled = true

theorem shutdown_stopped {hmac : Hmac} {s s' : EpgService} (h : Ready s)
    (hs : step hmac s .shutdown = some s') : Stopped s' := by
  simp only [step] at hs
  split_ifs at hs with hg
  obtain ⟨m,hm,rfl⟩ := dispatch_some hs
  cases hm
  have hn : s.clockSecsV0 ≠ none := fun hz => hg (Or.inl hz)
  refine ⟨hn,startShutdown_loaded (h.loaded hn),?_⟩
  show (startShutdown s.manager).core.manager.cancelled = true
  unfold startShutdown shutdownAsync
  cases hc : s.manager.core.manager.cancelled with
  | true => simpa using hc
  | false => by_cases hp : s.manager.core.manager.pendingInternalSaveStateCalls = 0 <;> simp [hp]

theorem addCode_still (hmac : Hmac) (s : Lifecycle.System) (codeStr : List UInt8)
    (hc : s.core.manager.cancelled = true) :
    Still s.core (serve s (addCode hmac s.core.manager s.core.clock codeStr).2).core := by
  have hno : acceptedCode hmac s.core.manager s.core.clock codeStr = none := by
    unfold acceptedCode
    rw [if_neg]
    rintro ⟨-,hf,-⟩
    rw [hc] at hf
    cases hf
  have hstate := (addCode_refused hmac _ _ codeStr hno).2
  have heff := addCode_refused_effects hmac _ _ codeStr hno
  apply performAll_still
  · exact addCode_ofBus hmac _ _ codeStr
  · rcases heff with he | he <;> rw [he] <;> rfl
  · rw [hstate]
    split_ifs <;> rfl
  · rw [hstate]
    split_ifs <;> rfl
  · rw [hstate]
    split_ifs <;> rfl

theorem clearCode_still (s : Lifecycle.System) (hc : s.core.manager.cancelled = true) :
    Still s.core (serve s (clearCode s.core.manager s.core.clock).2).core := by
  have hno : (clearCode s.core.manager s.core.clock).2 = (s.core.manager,[]) := by
    rcases clearCode_cases s.core.manager s.core.clock with ⟨-,hn⟩ | h
    · rw [hc] at hn
      cases hn
    · exact h
  rw [hno]
  exact ⟨rfl,rfl,rfl,rfl,rfl,rfl⟩

theorem checkExpired_still (s : Lifecycle.System) :
    Still s.core (serve s (s.core.manager,(checkExpiredCb s.core.manager s.core.clock).2)).core := by
  apply performAll_still s.core s.core.manager _ (checkExpiredCb_ofBus _ _) _ rfl rfl rfl
  unfold checkExpiredCb
  split_ifs <;> rfl

/-- The manager saves whenever it is told of a jump, cancelled or not. -/
theorem wallclockTimeChanged_saves (self : EpgManager) (clock : EpgClock) (delta : Int64)
    (hd : delta ≠ 0) :
    0 < (wallclockTimeChanged self clock delta).2.countP Effect.isSave := by
  unfold wallclockTimeChanged
  rw [if_neg hd,andThen_effects,List.countP_append]
  exact Nat.lt_of_lt_of_le Nat.zero_lt_one (Nat.le_add_left 1 _)

theorem step_still {hmac : Hmac} {s s' : EpgService} {op : Operation} (h : Stopped s)
    (hs : step hmac s op = some s') (hj : NoJump s op) :
    Still s.manager.core s'.manager.core := by
  cases op with
  | core op =>
    obtain ⟨m,hm,rfl⟩ := dispatch_some hs
    exact core_loaded h.loaded hm
  | checkExpired =>
    obtain ⟨m,hm,rfl⟩ := dispatch_some hs
    cases hm
    exact checkExpired_still s.manager
  | setProvider v0 =>
    simp only [step] at hs
    split_ifs at hs with hg
    exact absurd hg.1 h.provider
  | addCode codeStr =>
    simp only [step] at hs
    split_ifs at hs
    obtain ⟨m,hm,rfl⟩ := dispatch_some hs
    cases hm
    exact addCode_still hmac s.manager codeStr h.cancelled
  | clearCode =>
    simp only [step] at hs
    split_ifs at hs
    obtain ⟨m,hm,rfl⟩ := dispatch_some hs
    cases hm
    exact clearCode_still s.manager h.cancelled
  | clockJump v1 =>
    obtain ⟨v0,hv,rfl⟩ := Option.map_eq_some_iff.mp hs
    have hz : ¬ clockJumpDelta v0 v1 ≠ 0 := fun hn => hn (hj v0 hv)
    unfold EpgService.clockJump clockJumpCb
    rw [if_neg hz]
    exact ⟨rfl,rfl,rfl,rfl,rfl,rfl⟩
  | shutdown =>
    simp only [step] at hs
    split_ifs at hs with hg
    obtain ⟨m,hm,rfl⟩ := dispatch_some hs
    cases hm
    show Still s.manager.core (startShutdown s.manager).core
    unfold startShutdown shutdownAsync
    simp only [h.cancelled,if_true]
    exact ⟨rfl,rfl,rfl,rfl,rfl,rfl⟩

theorem jump_starts {hmac : Hmac} {s s' : EpgService} {op : Operation}
    (hs : step hmac s op = some s') (hj : ¬ NoJump s op) :
    s.manager.core.saves.length < s'.manager.core.saves.length ∧
      (Stopped s → Stopped s') := by
  cases op with
  | clockJump v1 =>
    obtain ⟨v0,hv,rfl⟩ := Option.map_eq_some_iff.mp hs
    have hd : clockJumpDelta v0 v1 ≠ 0 := by
      intro hz
      apply hj
      intro u hu
      rw [hv] at hu
      cases hu
      exact hz
    have hcb : (s.clockJump v0 v1).manager = serve s.manager (wallclockTimeChanged
        s.manager.core.manager s.manager.core.clock (clockJumpDelta v0 v1)) := by
      unfold EpgService.clockJump clockJumpCb
      rw [if_pos hd]
    constructor
    · rw [hcb]
      show _ < (performAll _ _).saves.length
      rw [performAll_saves_length]
      exact Nat.lt_add_of_pos_right (wallclockTimeChanged_saves _ _ _ hd)
    · intro h
      refine ⟨nofun,clockJump_loaded h.loaded v0 v1,?_⟩
      rw [hcb]
      show (performAll _ _).manager.cancelled = true
      rw [(performAll_extends _ _).manager]
      exact (wallclockTimeChanged_serves _ _ _).cancelled.trans h.cancelled
  | _ => exact absurd trivial hj

theorem step_provider {hmac : Hmac} {s s' : EpgService} {op : Operation}
    (h : s.clockSecsV0 ≠ none) (hs : step hmac s op = some s') : s'.clockSecsV0 ≠ none := by
  have hdispatch (o : Lifecycle.Operation) (hd : dispatch hmac s o = some s') :
      s'.clockSecsV0 ≠ none := by
    obtain ⟨m,-,rfl⟩ := dispatch_some hd
    exact h
  cases op with
  | core op => exact hdispatch _ hs
  | checkExpired => exact hdispatch _ hs
  | setProvider v0 =>
    simp only [step] at hs
    split_ifs at hs with hg
    exact absurd hg.1 h
  | clockJump v1 =>
    obtain ⟨v0,hv,rfl⟩ := Option.map_eq_some_iff.mp hs
    exact nofun
  | _ =>
    simp only [step] at hs
    split_ifs at hs
    exact hdispatch _ hs

theorem step_stopped {hmac : Hmac} {s s' : EpgService} {op : Operation} (h : Stopped s)
    (hs : step hmac s op = some s') : Stopped s' := by
  by_cases hj : NoJump s op
  · have hstill := step_still h hs hj
    exact ⟨step_provider h.provider hs,loads_loaded h.loaded hstill.loads hstill.deletions,
      hstill.cancelled.trans h.cancelled⟩
  · exact (jump_starts hs hj).2 h

/-- A step of a service that has been shut down leaves what is frozen as it is,
unless it dispatches a jump. -/
theorem step_frozen_iff {hmac : Hmac} {s₀ s s' : EpgService} {op : Operation} (h : Stopped s)
    (hf : Frozen s₀ s) (hs : step hmac s op = some s') : Frozen s₀ s' ↔ NoJump s op := by
  constructor
  · intro hf'
    by_contra hj
    have hmore := (jump_starts hs hj).1
    rw [hf'.saves,hf.saves] at hmore
    exact lt_irrefl _ hmore
  · intro hj
    have hstill := step_still h hs hj
    exact ⟨hstill.expiryTimeSecs.trans hf.expiryTimeSecs,hstill.usedCodes.trans hf.usedCodes,
      hstill.saves.trans hf.saves⟩

/-- In every run of the service that goes on after shutdown was called, the expiry
time, the used codes and the saves stay as shutdown left them exactly as long as
no jump of the wall clock is dispatched that amounts to anything. -/
theorem frozen_iff (hmac : Hmac) (enabled : Bool) (clock : EpgClock) (files : Directory)
    (before after : List Operation) (s t : EpgService)
    (hb : run (step hmac) (before++[.shutdown]) (constructed enabled clock files) = some s)
    (ha : run (step hmac) after s = some t) :
    Stays (step hmac) (Frozen s) after s ↔ Along (step hmac) NoJump after s := by
  obtain ⟨m,hm,hlast⟩ := run_append_some.mp hb
  obtain ⟨s',hs,⟨⟩⟩ := run_cons.mp hlast
  have hready : Ready m := run_invariant (fun _ _ _ h h' => step_ready h h')
    (constructed_ready enabled clock files) hm
  exact stays_iff_along_of_invariant (J := Stopped) (fun _ _ _ h h' => step_stopped h h')
    (fun _ _ _ h hf h' => step_frozen_iff h hf h') (shutdown_stopped hready hs)
    ⟨rfl,rfl,rfl⟩ ha

instance (s : EpgService) (op : Operation) : Decidable (NoJump s op) :=
  match op with
  | .clockJump _ => inferInstanceAs (Decidable (∀ v0 ∈ _, _))
  | .core _ => isTrue trivial
  | .checkExpired => isTrue trivial
  | .setProvider _ => isTrue trivial
  | .addCode _ => isTrue trivial
  | .clearCode => isTrue trivial
  | .shutdown => isTrue trivial

def startedUp : List Operation :=
  (loadNow 1 ++ loadNow 0 ++ loadNow 4 ++ saveNow ++ loadNow 2 ++ loadNow 3).map Operation.core
    ++ [.setProvider ⟨8600, 20⟩]

def hourLaterService : EpgService := constructed true hourLater savedFiles

theorem frozen_iff_example :
    ∃ s t, run (step zeroHmac) (startedUp++[.shutdown]) hourLaterService = some s ∧
      run (step zeroHmac) [.clearCode, .clockJump ⟨8610, 30⟩, .addCode []] s = some t ∧
      Stays (step zeroHmac) (Frozen s) [.clearCode, .clockJump ⟨8610, 30⟩, .addCode []] s := by
  have h : ((run (step zeroHmac) (startedUp++[.shutdown]) hourLaterService).any (fun s =>
      (run (step zeroHmac) [.clearCode, .clockJump ⟨8610, 30⟩, .addCode []] s).isSome &&
        decide (Along (step zeroHmac) NoJump [.clearCode, .clockJump ⟨8610, 30⟩, .addCode []] s)))
        = true := by decide +kernel
  rcases (Option.any_eq_true _ _).mp h with ⟨s,hs,hd⟩
  rw [Bool.and_eq_true,decide_eq_true_eq] at hd
  obtain ⟨t,ht⟩ := Option.isSome_iff_exists.mp hd.1
  exact ⟨s,t,hs,ht,(frozen_iff zeroHmac true hourLater savedFiles startedUp _ s t hs ht).mpr hd.2⟩

/-- The wall clock is set forward by a hundred seconds while shutdown's own save
is in flight: the manager takes them off the credit and starts another save. -/
theorem jump_after_shutdown :
    ¬ ∀ (hmac : Hmac) (enabled : Bool) (clock : EpgClock) (files : Directory)
      (before after : List Operation) (s t : EpgService),
      run (step hmac) (before++[.shutdown]) (constructed enabled clock files) = some s →
      run (step hmac) after s = some t → Frozen s t := by
  intro hall
  have h : ((run (step zeroHmac) (startedUp++[.shutdown]) hourLaterService).any (fun s =>
      (run (step zeroHmac) [.clockJump ⟨8700, 20⟩] s).any (fun t =>
        t.manager.core.manager.expiryTimeSecs = 82720 ∧
          s.manager.core.manager.expiryTimeSecs = 82820 ∧
          t.manager.requests.all (fun r => r.answers.isEmpty)))) = true := by decide +kernel
  rcases (Option.any_eq_true _ _).mp h with ⟨s,hs,hd⟩
  rcases (Option.any_eq_true _ _).mp hd with ⟨t,ht,hx⟩
  obtain ⟨h1,h2,-⟩ := of_decide_eq_true hx
  have hf := (hall zeroHmac true hourLater savedFiles startedUp _ s t hs ht).expiryTimeSecs
  rw [h1,h2] at hf
  exact absurd hf (by decide)

end EosPayg.ServiceShutdown
