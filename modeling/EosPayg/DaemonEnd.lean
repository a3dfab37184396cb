import EosPayg.DaemonMain

/-!
# How the daemon ends

Until the service has run nothing is told where the id of its source is kept. A
signal adds the only source that is; an error adds one that is not, and the loop
that waits for it is never left.
-/

set_option autoImplicit false

namespace EosPayg.DaemonEnd
open EosPayg.DaemonMain EosPayg.GuardedRun
open EosPayg.EfiVariables (EfiVarFs)
open EosPayg.ServiceStartup (Deployment)

def NoneClears (d : Daemon) : Prop :=
  ∀ s ∈ d.sources, s.callback ≠ .paygSystemPoweroff true

structure Quiet (d : Daemon) : Prop where
  ret : d.ret = .success
  exitSignal : d.exitSignal = none
  clears : NoneClears d
  nextId : d.nextId ≠ 0

structure Waiting (d : Daemon) : Prop where
  timeoutId : d.timeoutId ≠ 0
  reason : (∃ n, d.exitSignal = some n) ∨
    d.ret = .failure ∧ d.exitSignal = none ∧ NoneClears d

/-- What must hold where the process ends. -/
def FailClosed (d : Daemon) : Status → Prop
  | .failure => d.ready = false
  | .signal _ => 0 < d.poweroffs
  | .success => d.enforcingMode = true → d.watchdog = false ∧ 0 < d.service.exits

def Ending (d : Daemon) : Prop :=
  match d.phase with
  | .securing => Quiet d ∧ d.timeoutId = 0 ∧ d.ready = false
  | .connecting => Quiet d
  | .running => Quiet d ∧ d.timeoutId = 0
  | .spinning => Waiting d
  | .pinging => Quiet d
  | .exited status => FailClosed d status

theorem timeoutAdd_clears {d : Daemon} (h : NoneClears d) (secs : ℕ) (callback : Callback)
    (hc : callback ≠ .paygSystemPoweroff true) :
    NoneClears (gTimeoutAddSeconds d secs callback) := by
  intro s hs
  rcases List.mem_append.mp hs with hm | hm
  · exact h s hm
  · rw [List.mem_singleton.mp hm]
    exact hc

theorem timeoutAdd_quiet {d : Daemon} (h : Quiet d) (secs : ℕ) (callback : Callback)
    (hc : callback ≠ .paygSystemPoweroff true) : Quiet (gTimeoutAddSeconds d secs callback) :=
  ⟨h.ret,h.exitSignal,timeoutAdd_clears h.clears secs callback hc,Nat.succ_ne_zero d.nextId⟩

theorem poweroffOnError_quiet {d : Daemon} (h : Quiet d) : Quiet (poweroffOnError d) :=
  timeoutAdd_quiet h _ _ nofun

theorem again_clears {d : Daemon} (h : NoneClears d) (s : Source) : NoneClears (again d s) := by
  intro t ht
  obtain ⟨u,hu,rfl⟩ := List.mem_map.mp ht
  split_ifs
  · exact h u hu
  · exact h u hu

theorem erase_clears {d : Daemon} (h : NoneClears d) (s : Source) (clears : Bool) :
    NoneClears (paygSystemPoweroff d s clears) := fun t ht => h t (List.mem_of_mem_erase ht)

theorem ending_of_eq {d e : Daemon} (h : Ending d) (ha : d.phase.alive = true)
    (hp : e.phase = d.phase) (hs : e.sources = d.sources) (hn : e.nextId = d.nextId)
    (ht : e.timeoutId = d.timeoutId) (hx : e.exitSignal = d.exitSignal) (hr : e.ret = d.ret)
    (hy : e.ready = d.ready) : Ending e := by
  have hclears (hc : NoneClears d) : NoneClears e := fun s hm => hc s (hs ▸ hm)
  have hquiet (hq : Quiet d) : Quiet e :=
    ⟨hr.trans hq.ret,hx.trans hq.exitSignal,hclears hq.clears,hn.trans_ne hq.nextId⟩
  unfold Ending at h ⊢
  rw [hp]
  cases hph : d.phase with
  | securing =>
    simp only [hph] at h
    exact ⟨hquiet h.1,ht.trans h.2.1,hy.trans h.2.2⟩
  | connecting =>
    simp only [hph] at h
    exact hquiet h
  | running =>
    simp only [hph] at h
    exact ⟨hquiet h.1,ht.trans h.2⟩
  | spinning =>
    simp only [hph] at h
    refine ⟨ht.trans_ne h.timeoutId,?_⟩
    rw [hx,hr]
    exact h.reason.imp_right fun hf => ⟨hf.1,hf.2.1,hclears hf.2.2⟩
  | pinging =>
    simp only [hph] at h
    exact hquiet h
  | exited status =>
    rw [hph] at ha
    cases ha

theorem started_quiet (store : EfiVarFs) : Quiet (started store) := ⟨rfl,rfl,nofun,Nat.one_ne_zero⟩

structure Early (d : Daemon) : Prop where
  quiet : Quiet d
  phase : d.phase = .securing
  timeoutId : d.timeoutId = 0
  ready : d.ready = false

theorem poweroffOnError_early {d : Daemon} (h : Early d) : Early (poweroffOnError d) :=
  ⟨poweroffOnError_quiet h.quiet,h.phase,h.timeoutId,h.ready⟩

theorem efiInit_early {d : Daemon} (k : EfiInitAnswers) (h : Early d) : Early (efiInit k d) := by
  unfold efiInit
  split
  · exact ⟨⟨h.quiet.ret,h.quiet.exitSignal,h.quiet.clears,h.quiet.nextId⟩,h.phase,h.timeoutId,
      h.ready⟩
  · exact poweroffOnError_early h

theorem checkEnforcing_early {d : Daemon} (k : Answers) (o : Options) (h : Early d) :
    Early (checkEnforcing k o d) :=
  ⟨⟨h.quiet.ret,h.quiet.exitSignal,h.quiet.clears,h.quiet.nextId⟩,h.phase,h.timeoutId,h.ready⟩

theorem checkSecuritylevel_early {d : Daemon} (k : Answers) (h : Early d) :
    Early (checkSecuritylevel k d) := by
  have hefi (e : EfiVariables.Efi EfiVarFs) : Early { d with efi := e } :=
    ⟨⟨h.quiet.ret,h.quiet.exitSignal,h.quiet.clears,h.quiet.nextId⟩,h.phase,h.timeoutId,h.ready⟩
  unfold checkSecuritylevel
  dsimp only
  split_ifs
  · exact hefi _
  · exact poweroffOnError_early (hefi _)
  · exact h

theorem addTimeouts_early {d : Daemon} (h : Early d)
    (timeouts : List (ℕ × HardwareClock.Callback)) : Early (addTimeouts d timeouts) := by
  induction timeouts generalizing d with
  | nil => exact h
  | cons t ts ih =>
    refine ih ⟨timeoutAdd_quiet h.quiet _ _ ?_,h.phase,h.timeoutId,h.ready⟩
    cases t.2 <;> exact nofun

theorem initramfs_early {d : Daemon} (k : Answers) (o : Options) (h : Early d) :
    Early (initramfs k o d) :=
  addTimeouts_early (checkSecuritylevel_early k
    (checkEnforcing_early k o (efiInit_early k.efiInit h))) _

theorem main_early (k : Answers) (dep : Deployment) (store : EfiVarFs) {o : Options}
    (ho : k.options = some o) (hp : o.printLevel = false) : Early (main k dep store) := by
  have hs : Early (started store) := ⟨started_quiet store,rfl,rfl,rfl⟩
  simp only [main,ho,hp,Bool.false_eq_true,if_false]
  split_ifs
  · have h := initramfs_early k o hs
    exact ⟨⟨h.quiet.ret,h.quiet.exitSignal,h.quiet.clears,h.quiet.nextId⟩,h.phase,h.timeoutId,
      h.ready⟩
  · exact ⟨⟨rfl,rfl,nofun,Nat.one_ne_zero⟩,rfl,rfl,rfl⟩

theorem leave_signal {d : Daemon} {n : ℕ} (h : d.exitSignal = some n) :
    leave d = { d with phase := .exited (.signal n) } := by
  simp only [leave,h]

theorem leave_quiet {d : Daemon} (h : Quiet d)
    (hx : d.enforcingMode = true → 0 < d.service.exits) : Ending (leave d) := by
  simp only [leave,h.exitSignal,h.ret,true_and]
  split_ifs with hw
  · exact ⟨rfl,rfl,h.clears,h.nextId⟩
  · exact fun he => ⟨Bool.eq_false_of_not_eq_true hw,hx he⟩

theorem finish_ending {d : Daemon} (h : Quiet d) (ht : d.timeoutId = 0) (error : Option RunError)
    (hx : error = none → d.enforcingMode = true → 0 < d.service.exits) :
    Ending (finish d error) := by
  cases error with
  | none =>
    have he : finish d none = leave (allowWritingToBootPartition d false) := by
      simp [finish,allowWritingToBootPartition,ht]
    rw [he]
    exact leave_quiet ⟨h.ret,h.exitSignal,h.clears,h.nextId⟩ (hx rfl)
  | some error =>
    cases error with
    | signalled n =>
      simp only [finish,allowWritingToBootPartition,ne_eq,h.nextId,not_false_iff,if_true]
      exact ⟨h.nextId,Or.inl ⟨n,rfl⟩⟩
    | other =>
      simp only [finish,allowWritingToBootPartition,ne_eq,h.nextId,not_false_iff,if_true]
      exact ⟨h.nextId,Or.inr ⟨rfl,h.exitSignal,timeoutAdd_clears h.clears _ _ nofun⟩⟩

theorem serviceRun_ending {d : Daemon} (h : Quiet d) (ht : d.timeoutId = 0) :
    Ending (serviceRun d) := by
  unfold serviceRun
  split_ifs with he
  · exact ⟨⟨h.ret,h.exitSignal,h.clears,h.nextId⟩,ht⟩
  · exact finish_ending h ht none (fun _ hc => absurd hc he)

theorem notifyReady_ending {d : Daemon} (k : Answers) (h : Quiet d) (hr : d.ready = false) :
    Ending (notifyReady k d) := by
  unfold notifyReady
  by_cases hk : k.notifySocket = true ∧ k.sdNotify = true
  · rw [if_neg (not_not.mpr hk)]
    have hq := poweroffOnError_quiet h
    exact ⟨hq.ret,hq.exitSignal,hq.clears,hq.nextId⟩
  · rw [if_pos hk]
    exact hr

theorem protect_ending {d : Daemon} (k : Answers) (h : Quiet d) (hr : d.ready = false) :
    Ending (protect k d) := by
  unfold protect
  split_ifs
  · exact notifyReady_ending k ⟨h.ret,h.exitSignal,h.clears,h.nextId⟩ hr
  · exact hr
  · exact notifyReady_ending k h hr

theorem startWatchdog_quiet {d : Daemon} (h : Quiet d) : Quiet (startWatchdog d) := by
  have hq := timeoutAdd_quiet h 60 .pingWatchdog nofun
  exact ⟨hq.ret,hq.exitSignal,hq.clears,hq.nextId⟩

theorem afterSecureInit_ending {d : Daemon} (k : Answers) (h : Quiet d) (ht : d.timeoutId = 0)
    (hr : d.ready = false) : Ending (afterSecureInit k d) := by
  unfold afterSecureInit
  split_ifs
  · exact serviceRun_ending h ht
  · exact protect_ending k (startWatchdog_quiet h) hr
  · exact hr
  · exact protect_ending k h hr

theorem busConnected_ending {d : Daemon} (h : Quiet d) : Ending (busConnected d) := by
  refine serviceRun_ending ⟨h.ret,h.exitSignal,?_,h.nextId⟩ rfl
  exact fun s hs => h.clears s (List.mem_of_mem_filter hs)

theorem leave_phase (d : Daemon) : (leave d).phase ≠ .securing ∧ (leave d).phase ≠ .connecting ∧
    (leave d).phase ≠ .running := by
  unfold leave
  split
  · exact ⟨nofun,nofun,nofun⟩
  · split_ifs <;> exact ⟨nofun,nofun,nofun⟩

theorem finish_phase (d : Daemon) (error : Option RunError) :
    (finish d error).phase ≠ .securing ∧ (finish d error).phase ≠ .connecting ∧
      (finish d error).phase ≠ .running := by
  unfold finish
  dsimp only
  split_ifs
  · exact ⟨nofun,nofun,nofun⟩
  · exact leave_phase _

theorem serviceRun_phase (d : Daemon) :
    (serviceRun d).phase ≠ .securing ∧ (serviceRun d).phase ≠ .connecting := by
  unfold serviceRun
  split_ifs
  · exact ⟨nofun,nofun⟩
  · exact ⟨(finish_phase d none).1,(finish_phase d none).2.1⟩

theorem protect_phase (k : Answers) (d : Daemon) : (protect k d).phase ≠ .securing := by
  unfold protect notifyReady
  split_ifs <;> exact nofun

theorem afterSecureInit_phase (k : Answers) (d : Daemon) :
    (afterSecureInit k d).phase ≠ .securing := by
  unfold afterSecureInit
  split_ifs
  · exact (serviceRun_phase d).1
  · exact protect_phase k _
  · exact nofun
  · exact protect_phase k d

theorem dispatch_quiet {d : Daemon} (h : Quiet d) {s : Source} (hs : s ∈ d.sources) :
    Quiet (dispatch d s) ∧ (dispatch d s).timeoutId = d.timeoutId := by
  unfold dispatch
  split
  · rename_i clears hc
    cases clears with
    | true => exact absurd hc (h.clears s hs)
    | false => exact ⟨⟨h.ret,h.exitSignal,erase_clears h.clears s false,h.nextId⟩,rfl⟩
  · exact ⟨⟨h.ret,h.exitSignal,again_clears (d := { d with lastPing := d.now }) h.clears s,h.nextId⟩,
      rfl⟩
  · exact ⟨⟨h.ret,h.exitSignal,again_clears h.clears s,h.nextId⟩,rfl⟩

theorem dispatch_keeps (d : Daemon) (s : Source) :
    (dispatch d s).phase = d.phase ∧ (dispatch d s).exitSignal = d.exitSignal ∧
      (dispatch d s).ret = d.ret ∧ (dispatch d s).ready = d.ready := by
  unfold dispatch
  split <;> exact ⟨rfl,rfl,rfl,rfl⟩

theorem dispatch_watchdog (d : Daemon) (s : Source) : (dispatch d s).watchdog = d.watchdog := by
  unfold dispatch
  split <;> rfl

theorem dispatch_timeoutId (d : Daemon) (s : Source) :
    (dispatch d s).timeoutId = d.timeoutId ∨
      (dispatch d s).timeoutId = 0 ∧ 0 < (dispatch d s).poweroffs := by
  unfold dispatch
  split
  · rename_i clears hc
    cases clears with
    | true => exact Or.inr ⟨rfl,Nat.succ_pos _⟩
    | false => exact Or.inl rfl
  · exact Or.inl rfl
  · exact Or.inl rfl

theorem dispatch_waiting {d : Daemon} (h : Waiting d) (hp : d.phase = .spinning) {s : Source}
    (hs : s ∈ d.sources) : Ending (afterDispatch (dispatch d s)) := by
  obtain ⟨hph,hx,hret,-⟩ := dispatch_keeps d s
  rcases h.reason with ⟨n,hn⟩ | ⟨hf,hn,hc⟩
  · rcases dispatch_timeoutId d s with ht | ⟨ht,hpos⟩
    · have he : afterDispatch (dispatch d s) = dispatch d s :=
        if_neg (fun hz => h.timeoutId (ht ▸ hz.2))
      rw [he,Ending,hph,hp]
      exact ⟨ht.trans_ne h.timeoutId,Or.inl ⟨n,hx.trans hn⟩⟩
    · have he : afterDispatch (dispatch d s) = leave (dispatch d s) :=
        if_pos ⟨hph.trans hp,ht⟩
      rw [he,leave_signal (hx.trans hn)]
      exact hpos
  · -- after an error nothing clears the id
    have hkeep : (dispatch d s).timeoutId = d.timeoutId ∧ NoneClears (dispatch d s) := by
      unfold dispatch
      split
      · rename_i clears hcb
        cases clears with
        | true => exact absurd hcb (hc s hs)
        | false => exact ⟨rfl,erase_clears hc s false⟩
      · exact ⟨rfl,again_clears (d := { d with lastPing := d.now }) hc s⟩
      · exact ⟨rfl,again_clears hc s⟩
    have he : afterDispatch (dispatch d s) = dispatch d s :=
      if_neg (fun hz => h.timeoutId (hkeep.1 ▸ hz.2))
    rw [he,Ending,hph,hp]
    exact ⟨hkeep.1.trans_ne h.timeoutId,Or.inr ⟨hret.trans hf,hx.trans hn,hkeep.2⟩⟩

theorem dispatch_ending {d : Daemon} (h : Ending d) (ha : d.phase.alive = true) {s : Source}
    (hs : s ∈ d.sources) : Ending (afterDispatch (dispatch d s)) := by
  obtain ⟨hph,-,-,hr⟩ := dispatch_keeps d s
  have hsame (hp : d.phase ≠ .spinning) : afterDispatch (dispatch d s) = dispatch d s :=
    if_neg (fun hz => hp (hph.symm.trans hz.1))
  unfold Ending at h
  cases hp : d.phase with
  | securing =>
    simp only [hp] at h
    obtain ⟨hq,ht⟩ := dispatch_quiet h.1 hs
    rw [hsame (by simp [hp]),Ending,hph,hp]
    exact ⟨hq,ht.trans h.2.1,hr.trans h.2.2⟩
  | connecting =>
    simp only [hp] at h
    rw [hsame (by simp [hp]),Ending,hph,hp]
    exact (dispatch_quiet h hs).1
  | running =>
    simp only [hp] at h
    obtain ⟨hq,ht⟩ := dispatch_quiet h.1 hs
    rw [hsame (by simp [hp]),Ending,hph,hp]
    exact ⟨hq,ht.trans h.2⟩
  | spinning =>
    simp only [hp] at h
    exact dispatch_waiting h hp hs
  | pinging =>
    simp only [hp] at h
    rw [hsame (by simp [hp]),Ending,hph,hp]
    exact (dispatch_quiet h hs).1
  | exited status =>
    rw [hp] at ha
    cases ha

theorem unlocked_ending {d : Daemon} (h : Ending d) (ha : d.phase.alive = true)
    (k : EfiVariables.Answers) : Ending (providerUnlockedCb d k) := by
  unfold providerUnlockedCb
  split_ifs
  · exact ending_of_eq h ha rfl rfl rfl rfl rfl rfl rfl
  · exact h

theorem step_ending {k : Answers} {dep : Deployment} {d d' : Daemon} {event : Event}
    (h : Ending d) (hs : step k dep d event = some d') : Ending d' := by
  cases event with
  | pass secs =>
    simp only [step] at hs
    split_ifs at hs with ha
    cases hs
    exact ending_of_eq h ha rfl rfl rfl rfl rfl rfl rfl
  | dispatch s =>
    simp only [step] at hs
    split_ifs at hs with hd
    cases hs
    exact dispatch_ending h hd.1 hd.2.1
  | service op =>
    simp only [step] at hs
    split_ifs at hs with ha
    obtain ⟨sv,-,rfl⟩ := Option.map_eq_some_iff.mp hs
    exact ending_of_eq h ha.1 rfl rfl rfl rfl rfl rfl rfl
  | secureInitReturns =>
    simp only [step] at hs
    split_ifs at hs with hp
    obtain ⟨sv,-,rfl⟩ := Option.map_eq_some_iff.mp hs
    simp only [Ending,hp] at h
    obtain ⟨hq,ht,hr⟩ := h
    exact afterSecureInit_ending k ⟨hq.ret,hq.exitSignal,hq.clears,hq.nextId⟩ ht hr
  | busConnected =>
    simp only [step] at hs
    split_ifs at hs with hp
    cases hs
    simp only [Ending,hp] at h
    exact busConnected_ending h
  | unlocked answers =>
    simp only [step] at hs
    split_ifs at hs with ha
    cases hs
    exact unlocked_ending h ha.1 answers
  | runReturns error =>
    simp only [step] at hs
    split_ifs at hs with hp
    cases hs
    simp only [Ending,hp.1] at h
    exact finish_ending h.1 h.2 error (fun he _ => hp.2 he)

theorem run_ending {k : Answers} {dep : Deployment} {store : EfiVarFs} {o : Options}
    (ho : k.options = some o) (hp : o.printLevel = false) {events : List Event} {t : Daemon}
    (hr : run (step k dep) events (main k dep store) = some t) : Ending t := by
  have he := main_early k dep store ho hp
  refine run_invariant (fun _ _ _ h hs => step_ending h hs) ?_ hr
  rw [Ending,he.phase]
  exact ⟨he.quiet,he.timeoutId,he.ready⟩

/-- However the daemon runs, when its process ends it has failed before systemd was
told to go on, or was signalled and has requested a power-off; with success it ends
only where nothing is enforced, or the service told itself to exit and the watchdog
is not used. -/
theorem ends_fail_closed (k : Answers) (dep : Deployment) (store : EfiVarFs) (o : Options)
    (ho : k.options = some o) (hp : o.printLevel = false) (events : List Event) (t : Daemon)
    (hr : run (step k dep) events (main k dep store) = some t) (status : Status)
    (hst : t.phase = .exited status) : FailClosed t status := by
  have h := run_ending ho hp hr
  rwa [Ending,hst] at h

def granted : EfiVariables.Answers := ⟨none, .ok 4, none, .ok 64, .ok 64, none, none⟩

def grantedFlags : EosPayg.DebugFlags.FlagAnswers := ⟨granted, granted⟩

def grantedAnswers : Answers where
  options := some ⟨false, true⟩
  initrdRelease := true
  epgSecurityLevel := 4
  efiInit := ⟨none, none, none⟩
  secureBootDebug := grantedFlags
  secureBoot := granted
  activeDebug := grantedFlags
  active := granted
  levelDebug := grantedFlags
  levelRead := granted
  levelOverwrite := granted
  hwclock := ⟨.ok 3, .ok ⟨0, 0, 0, 1, 0, 123⟩, 1672531200⟩
  serviceDebug := grantedFlags
  serviceActive := granted
  watchdogDebug := grantedFlags
  openWatchdog := true
  lsmDebug := grantedFlags
  openLsm := true
  notifySocket := true
  sdNotify := true

def activeStore : EfiVarFs :=
  ⟨((∅ : AList (fun _ : EfiVariables.Name => EfiVariables.Bytes)).insert
    (EfiVariables.eospaygEfiName (EfiVariables.cString "active")) [7, 0, 0, 0, 1]).insert
    (EfiVariables.eospaygEfiName (EfiVariables.cString "securitylevel")) [7, 0, 0, 0, 4], []⟩

def onePlugin : Deployment := ⟨[⟨true, true, true, true, true, true⟩], [], none, none⟩

def serviceStarted : List Event :=
  [.service (.loader (.initCb 0)), .service (.loader .loadCb), .service (.loader .allShutDownCb),
    .secureInitReturns, .busConnected, .service (.startupAsync true), .pass 3600]

theorem ends_fail_closed_example :
    ∃ t, run (step grantedAnswers onePlugin) (serviceStarted++[.runReturns (some (.signalled 15)),
        .dispatch ⟨4, 3600, 0, .paygSystemPoweroff true⟩])
        (main grantedAnswers onePlugin activeStore) = some t ∧
      t.phase = .exited (.signal 15) ∧ FailClosed t (.signal 15) := by
  obtain ⟨t,ht⟩ := Option.isSome_iff_exists.mp (show (run (step grantedAnswers onePlugin)
    (serviceStarted++[.runReturns (some (.signalled 15)),
      .dispatch ⟨4, 3600, 0, .paygSystemPoweroff true⟩])
    (main grantedAnswers onePlugin activeStore)).isSome by decide +kernel)
  have hd : (run (step grantedAnswers onePlugin) (serviceStarted++[.runReturns (some (.signalled 15)),
      .dispatch ⟨4, 3600, 0, .paygSystemPoweroff true⟩])
      (main grantedAnswers onePlugin activeStore)).map Daemon.phase =
        some (.exited (.signal 15)) := by decide +kernel
  rw [ht] at hd
  have hst := Option.some.inj hd
  exact ⟨t,ht,hst,ends_fail_closed grantedAnswers onePlugin activeStore ⟨false, true⟩ rfl rfl _ t ht
    (.signal 15) hst⟩

end EosPayg.DaemonEnd
