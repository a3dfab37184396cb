import EosPayg.DaemonWatch

/-!
# What the variables decide about a boot

Whether a boot enforces anything is decided by variables that nothing but a security
level is written to. A daemon that enforces knows that it is active, and refuses to
fall back to the manager; one that cannot reach the variables enforces nothing, and
ends before the power-off it has announced.
-/

set_option autoImplicit false

namespace EosPayg.DaemonEfi
open EosPayg.DaemonMain EosPayg.DaemonEnd EosPayg.DebugFlags EosPayg.GuardedRun
open EosPayg.SecurityLevel (testAndUpdateSecuritylevel securitylevelName)
open EosPayg.EfiVariables hiding Answers
open EosPayg.ServiceStartup (Deployment EpgService)

def activeName : Name := eospaygEfiName (cString "active")

def debugName : Name := eospaygEfiName (cString "debug")

theorem efivarfsRead_congr {s t : EfiVarFs} {name : Name}
    (h : s.files.lookup name = t.files.lookup name) (k : EfiVariables.Answers) :
    efivarfsRead s name k = efivarfsRead t name k := by
  unfold efivarfsRead
  rw [h]

theorem efivarfsExists_congr {s t : EfiVarFs} {name : Name}
    (h : s.files.lookup (eospaygEfiName name) = t.files.lookup (eospaygEfiName name))
    (k : EfiVariables.Answers) : efivarfsExists s name k = efivarfsExists t name k := by
  have hm : eospaygEfiName name ∈ s.files ↔ eospaygEfiName name ∈ t.files := by
    rw [← AList.lookup_isSome,← AList.lookup_isSome,h]
  unfold efivarfsExists
  rw [decide_eq_decide.mpr hm]

structure Agree (e e' : Efi EfiVarFs) : Prop where
  postPivot : e.postPivot = e'.postPivot
  debug : e.store.files.lookup debugName = e'.store.files.lookup debugName
  active : e.store.files.lookup activeName = e'.store.files.lookup activeName

theorem varRead_congr {e e' : Efi EfiVarFs} {name : Name} (hp : e.postPivot = e'.postPivot)
    (h : e.store.files.lookup (eospaygEfiName name) = e'.store.files.lookup (eospaygEfiName name))
    (expectedSize : ℤ) (k : EfiVariables.Answers) :
    varRead efivarfsOps e name expectedSize k = varRead efivarfsOps e' name expectedSize k := by
  obtain ⟨store,postPivot⟩ := e
  obtain ⟨store',postPivot'⟩ := e'
  obtain rfl : postPivot = postPivot' := hp
  have hread : efivarfsRead store (eospaygEfiName name) k =
      efivarfsRead store' (eospaygEfiName name) k := efivarfsRead_congr h k
  unfold varRead varReadFullname
  dsimp only [efivarfsOps]
  rw [hread]

theorem readEospaygDebug_congr {e e' : Efi EfiVarFs} (h : Agree e e') (k : FlagAnswers) :
    readEospaygDebug efivarfsOps e k = readEospaygDebug efivarfsOps e' k := by
  have hread : varRead efivarfsOps e (cString "debug") (-1) k.debugRead =
      varRead efivarfsOps e' (cString "debug") (-1) k.debugRead :=
    varRead_congr h.postPivot h.debug (-1) k.debugRead
  have hexists : varExists efivarfsOps e (cString "debug") k.debugExists =
      varExists efivarfsOps e' (cString "debug") k.debugExists :=
    efivarfsExists_congr h.debug k.debugExists
  unfold readEospaygDebug
  rw [hread,hexists]

theorem activeSet_congr {e e' : Efi EfiVarFs} (h : Agree e e') (k : FlagAnswers)
    (active : EfiVariables.Answers) :
    paygGetEospaygActiveSet efivarfsOps e k active =
      paygGetEospaygActiveSet efivarfsOps e' k active := by
  have hexists : varExists efivarfsOps e (cString "active") active =
      varExists efivarfsOps e' (cString "active") active :=
    efivarfsExists_congr h.active active
  unfold paygGetEospaygActiveSet
  rw [readEospaygDebug_congr h,hexists]

theorem efivarfsWrite_frame (s : EfiVarFs) {name other : Name} (hn : other ≠ name)
    (content : Bytes) (allowOverwrite : Bool) (k : EfiVariables.Answers) :
    (efivarfsWrite s name content allowOverwrite k).1.files.lookup other =
      s.files.lookup other := by
  have hopen (t : EfiVarFs) (ht : openCreate s name (!allowOverwrite) k = .ok t) :
      t.files.lookup other = s.files.lookup other := by
    unfold openCreate at ht
    cases hk : k.openat with
    | some errno => simp [hk] at ht
    | none =>
      simp only [hk] at ht
      split_ifs at ht
      · cases ht
        rfl
      · cases ht
        exact AList.lookup_insert_ne hn
  unfold efivarfsWrite
  dsimp only
  split
  · rfl
  · rename_i t ht
    split
    · exact hopen t ht
    · exact (AList.lookup_insert_ne hn).trans (hopen t ht)

theorem testAndUpdate_frame (level : UInt8) (e : Efi EfiVarFs)
    (kread koverwrite : EfiVariables.Answers) :
    (testAndUpdateSecuritylevel efivarfsOps level e kread koverwrite).1.postPivot = e.postPivot ∧
      ∀ name, name ≠ securitylevelName →
        (testAndUpdateSecuritylevel efivarfsOps level e kread koverwrite).1.store.files.lookup name =
          e.store.files.lookup name := by
  unfold testAndUpdateSecuritylevel
  split
  · exact ⟨rfl,fun _ _ => rfl⟩
  · dsimp only
    split_ifs
    · exact ⟨rfl,fun _ _ => rfl⟩
    · unfold varOverwrite
      dsimp only
      split_ifs
      · exact ⟨rfl,fun _ _ => rfl⟩
      · exact ⟨rfl,fun name hn => efivarfsWrite_frame e.store hn _ true koverwrite⟩
    · exact ⟨rfl,fun _ _ => rfl⟩

theorem activeName_ne : activeName ≠ securitylevelName := by decide

theorem debugName_ne : debugName ≠ securitylevelName := by decide

structure Carries (d e : Daemon) : Prop where
  enforcingMode : e.enforcingMode = d.enforcingMode
  legacyMode : e.legacyMode = d.legacyMode
  service : e.service = d.service
  store : e.efi.store = d.efi.store

theorem leave_carries {d e : Daemon} (h : Carries d e) : Carries d (leave e) := by
  unfold leave
  split
  · exact ⟨h.enforcingMode,h.legacyMode,h.service,h.store⟩
  · split_ifs <;> exact ⟨h.enforcingMode,h.legacyMode,h.service,h.store⟩

theorem finish_carries (d : Daemon) (error : Option RunError) : Carries d (finish d error) := by
  unfold finish
  dsimp only
  cases error with
  | none =>
    split_ifs
    · exact ⟨rfl,rfl,rfl,rfl⟩
    · exact leave_carries ⟨rfl,rfl,rfl,rfl⟩
  | some error =>
    cases error with
    | signalled n =>
      split_ifs
      · exact ⟨rfl,rfl,rfl,rfl⟩
      · exact leave_carries ⟨rfl,rfl,rfl,rfl⟩
    | other =>
      split_ifs
      · exact ⟨rfl,rfl,rfl,rfl⟩
      · exact leave_carries ⟨rfl,rfl,rfl,rfl⟩

theorem serviceRun_carries (d : Daemon) : Carries d (serviceRun d) := by
  unfold serviceRun
  split_ifs
  · exact ⟨rfl,rfl,rfl,rfl⟩
  · exact finish_carries d none

theorem afterSecureInit_carries (k : Answers) (d : Daemon) : Carries d (afterSecureInit k d) := by
  unfold afterSecureInit protect notifyReady
  split_ifs
  · exact serviceRun_carries d
  all_goals exact ⟨rfl,rfl,rfl,rfl⟩

theorem dispatch_carries (d : Daemon) (s : Source) : Carries d (afterDispatch (dispatch d s)) := by
  have hd : Carries d (dispatch d s) := by
    unfold dispatch
    split <;> exact ⟨rfl,rfl,rfl,rfl⟩
  unfold afterDispatch
  split_ifs
  · exact leave_carries hd
  · exact hd

/-- A step decides nothing anew, changes the service only by a step of its own, and
the variables only by deleting one. -/
theorem step_carries {k : Answers} {dep : Deployment} {d d' : Daemon} {event : Event}
    (hs : step k dep d event = some d') :
    ∃ sv efi, Carries { d with service := sv, efi := efi } d' ∧
      (sv = d.service ∨ ∃ op, ServiceStartup.step dep d.service op = some sv) ∧
      (efi = d.efi ∨ ∃ a, efi = (varDelete efivarfsOps d.efi (cString "active") a).1) := by
  cases event with
  | pass secs =>
    simp only [step] at hs
    split_ifs at hs
    cases hs
    exact ⟨d.service,d.efi,⟨rfl,rfl,rfl,rfl⟩,Or.inl rfl,Or.inl rfl⟩
  | dispatch s =>
    simp only [step] at hs
    split_ifs at hs
    cases hs
    exact ⟨d.service,d.efi,dispatch_carries d s,Or.inl rfl,Or.inl rfl⟩
  | service op =>
    simp only [step] at hs
    split_ifs at hs
    obtain ⟨sv,hsv,rfl⟩ := Option.map_eq_some_iff.mp hs
    exact ⟨sv,d.efi,⟨rfl,rfl,rfl,rfl⟩,Or.inr ⟨op,hsv⟩,Or.inl rfl⟩
  | secureInitReturns =>
    simp only [step] at hs
    split_ifs at hs
    obtain ⟨sv,hsv,rfl⟩ := Option.map_eq_some_iff.mp hs
    exact ⟨sv,d.efi,afterSecureInit_carries k { d with service := sv },Or.inr ⟨_,hsv⟩,Or.inl rfl⟩
  | busConnected =>
    simp only [step] at hs
    split_ifs at hs
    cases hs
    have hrun := serviceRun_carries { gSourceRemove d d.timeoutId with
      timeoutId := 0, efi := rootPivot d.efi }
    exact ⟨d.service,d.efi,⟨hrun.enforcingMode,hrun.legacyMode,hrun.service,hrun.store⟩,Or.inl rfl,
      Or.inl rfl⟩
  | unlocked answers =>
    simp only [step] at hs
    split_ifs at hs
    cases hs
    unfold providerUnlockedCb
    split_ifs
    · exact ⟨d.service,_,⟨rfl,rfl,rfl,rfl⟩,Or.inl rfl,Or.inr ⟨_,rfl⟩⟩
    · exact ⟨d.service,d.efi,⟨rfl,rfl,rfl,rfl⟩,Or.inl rfl,Or.inl rfl⟩
  | runReturns error =>
    simp only [step] at hs
    split_ifs at hs
    cases hs
    exact ⟨d.service,d.efi,finish_carries d error,Or.inl rfl,Or.inl rfl⟩

structure Known (s : EpgService) : Prop where
  active : s.eospaygActiveEfivar = true
  provider : s.provider ≠ some .epgManager
  stage : ∀ enabled, s.stage ≠ .creatingManager enabled
  exits : s.exits = 0

theorem startupComplete_known {s : EpgService} (h : Known s) (registered : Bool) :
    Known (ServiceStartup.epgServiceStartupComplete s registered) := by
  unfold ServiceStartup.epgServiceStartupComplete ServiceStartup.providerNotifyEnabledCb
    ServiceStartup.gTaskReturn
  dsimp only
  split_ifs <;> exact ⟨h.active,h.provider,nofun,h.exits⟩

theorem setProvider_known {s : EpgService} (h : Known s) (i : ℕ) :
    Known (ServiceStartup.setProvider s (.plugin i)) :=
  ⟨h.active,nofun,h.stage,h.exits⟩

theorem serviceStep_known {dep : Deployment} {s s' : EpgService} {op : ServiceStartup.Operation}
    (h : Known s) (hs : ServiceStartup.step dep s op = some s') : Known s' := by
  cases op with
  | loader op =>
    simp only [ServiceStartup.step] at hs
    split_ifs at hs
    obtain ⟨l,-,rfl⟩ := Option.map_eq_some_iff.mp hs
    exact ⟨h.active,h.provider,h.stage,h.exits⟩
  | secureInitReturns =>
    simp only [ServiceStartup.step] at hs
    split_ifs at hs
    obtain ⟨r,-,rfl⟩ := Option.map_eq_some_iff.mp hs
    unfold ServiceStartup.secureInitReturns
    split
    · exact ⟨h.active,nofun,nofun,h.exits⟩
    · exact ⟨h.active,h.provider,nofun,h.exits⟩
  | startupAsync registered =>
    simp only [ServiceStartup.step] at hs
    split_ifs at hs
    cases hs
    unfold ServiceStartup.epgServiceStartupAsync
    split_ifs
    · exact startupComplete_known h registered
    · exact ⟨h.active,h.provider,nofun,h.exits⟩
  | getFirstEnabledCb registered =>
    simp only [ServiceStartup.step] at hs
    split_ifs at hs
    obtain ⟨r,-,rfl⟩ := Option.map_eq_some_iff.mp hs
    unfold ServiceStartup.providerGetFirstEnabledCb
    split
    · exact startupComplete_known (setProvider_known h _) registered
    · rw [if_pos h.active]
      exact ⟨h.active,h.provider,nofun,h.exits⟩
  | managerNewCb error registered =>
    simp only [ServiceStartup.step] at hs
    split at hs
    · rename_i enabled hst
      exact absurd hst (h.stage enabled)
    · cases hs
  | enabledChanged enabled =>
    simp only [ServiceStartup.step] at hs
    split at hs
    · cases hs
      unfold ServiceStartup.enabledChanged ServiceStartup.providerNotifyEnabledCb
      dsimp only
      split_ifs <;> exact ⟨h.active,h.provider,h.stage,h.exits⟩
    · cases hs

theorem step_known {k : Answers} {dep : Deployment} {d d' : Daemon} {event : Event}
    (h : d.enforcingMode = true → Known d.service) (hs : step k dep d event = some d')
    (he : d'.enforcingMode = true) : Known d'.service := by
  obtain ⟨sv,efi,hc,hsv,-⟩ := step_carries hs
  have hk := h (hc.enforcingMode.symm.trans he)
  rw [hc.service]
  rcases hsv with rfl | ⟨op,hop⟩
  · exact hk
  · exact serviceStep_known hk hop

theorem addTimeouts_eq (d : Daemon) (timeouts : List (ℕ × HardwareClock.Callback)) :
    ∃ sources nextId,
      addTimeouts d timeouts = { d with sources := sources, nextId := nextId } := by
  induction timeouts generalizing d with
  | nil => exact ⟨d.sources,d.nextId,rfl⟩
  | cons t ts ih =>
    obtain ⟨sources,nextId,he⟩ := ih (gTimeoutAddSeconds d t.1 (hwclockCallback t.2))
    exact ⟨sources,nextId,he⟩

theorem efiInit_carries (k : EfiInitAnswers) (d : Daemon) : Carries d (efiInit k d) := by
  unfold efiInit
  split <;> exact ⟨rfl,rfl,rfl,rfl⟩

theorem checkSecuritylevel_agree (k : Answers) (d : Daemon) :
    (checkSecuritylevel k d).enforcingMode = d.enforcingMode ∧
      (checkSecuritylevel k d).legacyMode = d.legacyMode ∧
      (checkSecuritylevel k d).efiReady = d.efiReady ∧
      Agree d.efi (checkSecuritylevel k d).efi := by
  obtain ⟨hp,hf⟩ := testAndUpdate_frame k.epgSecurityLevel d.efi (kernel d k.levelRead)
    (kernel d k.levelOverwrite)
  have hagree : Agree d.efi (testAndUpdateSecuritylevel efivarfsOps k.epgSecurityLevel d.efi
      (kernel d k.levelRead) (kernel d k.levelOverwrite)).1 :=
    ⟨hp.symm,(hf debugName debugName_ne).symm,(hf activeName activeName_ne).symm⟩
  unfold checkSecuritylevel
  dsimp only
  split_ifs
  · exact ⟨rfl,rfl,rfl,hagree⟩
  · exact ⟨rfl,rfl,rfl,hagree⟩
  · exact ⟨rfl,rfl,rfl,⟨rfl,rfl,rfl⟩⟩

theorem main_known {k : Answers} {dep : Deployment} {store : EfiVarFs} {o : Options}
    (ho : k.options = some o) (hp : o.printLevel = false) (hi : k.initrdRelease = true)
    (hdebug : k.serviceDebug = k.activeDebug) (hactive : k.serviceActive = k.active)
    (he : (main k dep store).enforcingMode = true) : Known (main k dep store).service := by
  have hm : main k dep store =
      secureInitSync k dep (allowWritingToBootPartition (initramfs k o (started store)) true) := by
    simp only [main,ho,hp,hi,Bool.false_eq_true,if_false,if_true]
  rw [hm] at he ⊢
  unfold initramfs at he ⊢
  have hinit := efiInit_carries k.efiInit (started store)
  generalize efiInit k.efiInit (started store) = d at he hinit ⊢
  obtain ⟨henf,hleg,hready,hagree⟩ := checkSecuritylevel_agree k (checkEnforcing k o d)
  generalize checkSecuritylevel k (checkEnforcing k o d) = c at he henf hleg hready hagree ⊢
  dsimp only at he ⊢
  obtain ⟨sources,nextId,hrtc⟩ := addTimeouts_eq c
    (HardwareClock.setupRtcUpdater HardwareClock.bootNew c.enforcingMode k.hwclock).timeouts
  rw [hrtc] at he ⊢
  have hset : paygGetEospaygActiveSet efivarfsOps d.efi (flagKernel d k.activeDebug)
      (kernel d k.active) = true :=
    (Bool.and_eq_true_iff.mp (henf.symm.trans he)).2
  have hanswers (a : EfiVariables.Answers) : kernel c a = kernel d a := by
    show (if c.efiReady then a else notInitialized) = _
    rw [hready]
    rfl
  have hservice : paygGetEospaygActiveSet efivarfsOps c.efi (flagKernel c k.serviceDebug)
      (kernel c k.serviceActive) = true := by
    rw [← activeSet_congr hagree,hdebug,hactive,flagKernel,hanswers,hanswers,hanswers]
    exact hset
  have hlegacy : c.legacyMode = false := hleg.trans hinit.legacyMode
  refine ⟨?_,(Option.some_ne_none _).symm,fun _ h => (by cases h),rfl⟩
  show (!c.legacyMode && paygGetEospaygActiveSet efivarfsOps c.efi (flagKernel c k.serviceDebug)
    (kernel c k.serviceActive)) = true
  rw [hlegacy,hservice]
  rfl

/-- Where the variables give the same answer both times they are asked, a daemon that
enforces in the initramfs never falls back to the manager, is never told to exit, and
never ends with success: only by a failure before systemd was told to go on, or by a
signal after it has requested a power-off. -/
theorem enforced_never_lapses (k : Answers) (dep : Deployment) (store : EfiVarFs) (o : Options)
    (ho : k.options = some o) (hp : o.printLevel = false) (hi : k.initrdRelease = true)
    (hdebug : k.serviceDebug = k.activeDebug) (hactive : k.serviceActive = k.active)
    (events : List Event) (t : Daemon)
    (hr : run (step k dep) events (main k dep store) = some t) (he : t.enforcingMode = true) :
    t.service.provider ≠ some .epgManager ∧ t.service.exits = 0 ∧
      ∀ status, t.phase = .exited status →
        status = .failure ∧ t.ready = false ∨ ∃ n, status = .signal n ∧ 0 < t.poweroffs := by
  have hk : t.enforcingMode = true → Known t.service :=
    run_invariant (I := fun d => d.enforcingMode = true → Known d.service)
      (fun _ _ _ h hs => step_known h hs) (main_known ho hp hi hdebug hactive) hr
  have h := hk he
  refine ⟨h.provider,h.exits,fun status hst => ?_⟩
  have hend := ends_fail_closed k dep store o ho hp events t hr status hst
  cases status with
  | failure => exact Or.inl ⟨rfl,hend⟩
  | signal n => exact Or.inr ⟨n,rfl,hend⟩
  | success => exact absurd h.exits (hend he).2.ne'

theorem enforced_never_lapses_example :
    ∃ t, run (step grantedAnswers onePlugin) serviceStarted
        (main grantedAnswers onePlugin activeStore) = some t ∧
      t.enforcingMode = true ∧ t.service.provider ≠ some .epgManager := by
  obtain ⟨t,ht⟩ := Option.isSome_iff_exists.mp (show (run (step grantedAnswers onePlugin)
    serviceStarted (main grantedAnswers onePlugin activeStore)).isSome by decide +kernel)
  have hd : (run (step grantedAnswers onePlugin) serviceStarted
      (main grantedAnswers onePlugin activeStore)).map Daemon.enforcingMode = some true := by
    decide +kernel
  rw [ht] at hd
  have he := Option.some.inj hd
  exact ⟨t,ht,he,(enforced_never_lapses grantedAnswers onePlugin activeStore ⟨false, true⟩ rfl rfl rfl
    rfl rfl serviceStarted t ht he).1⟩

theorem readEospaygDebug_notInitialized (e : Efi EfiVarFs) :
    readEospaygDebug efivarfsOps e ⟨notInitialized, notInitialized⟩ = 0 := rfl

theorem activeSet_notInitialized (e : Efi EfiVarFs) :
    paygGetEospaygActiveSet efivarfsOps e ⟨notInitialized, notInitialized⟩ notInitialized =
      false := by
  unfold paygGetEospaygActiveSet
  rw [readEospaygDebug_notInitialized]
  dsimp only
  rw [if_neg (by decide),if_neg (by decide)]
  rfl

structure Unread (d : Daemon) : Prop where
  phase : d.phase = .securing ∨ d.phase = .connecting ∨ d.phase = .exited .success ∨
    d.phase = .exited .failure ∧ d.ready = false
  ready : d.phase = .securing → d.ready = false
  enforcingMode : d.enforcingMode = false
  legacyMode : d.legacyMode = false
  ret : d.ret = .success
  exitSignal : d.exitSignal = none
  watchdog : d.watchdog = false
  sources : ∀ s ∈ d.sources, 1200 ≤ s.due ∧ s.callback = .paygSystemPoweroff false
  poweroffs : d.poweroffs ≠ 0 → 1200 ≤ d.now

theorem main_unread {k : Answers} {dep : Deployment} {store : EfiVarFs} {o : Options}
    (ho : k.options = some o) (hp : o.printLevel = false) (hi : k.initrdRelease = true)
    {e : EfiInitError} (herr : eospaygEfiInit k.efiInit = .error e) :
    Unread (main k dep store) := by
  have hinit : efiInit k.efiInit (started store) = poweroffOnError (started store) := by
    unfold efiInit
    rw [herr]
  have hcheck : checkEnforcing k o (poweroffOnError (started store)) =
      { poweroffOnError (started store) with enforcingMode := false } := by
    have hactive : paygGetEospaygActiveSet efivarfsOps (poweroffOnError (started store)).efi
        (flagKernel (poweroffOnError (started store)) k.activeDebug)
        (kernel (poweroffOnError (started store)) k.active) = false :=
      activeSet_notInitialized _
    unfold checkEnforcing
    dsimp only
    rw [hactive,Bool.and_false]
  have hm : main k dep store = secureInitSync k dep (allowWritingToBootPartition
      { poweroffOnError (started store) with enforcingMode := false } true) := by
    simp only [main,ho,hp,hi,Bool.false_eq_true,if_false,if_true,initramfs,hinit,hcheck]
    rfl
  rw [hm]
  refine ⟨Or.inl rfl,fun _ => rfl,rfl,rfl,rfl,rfl,rfl,fun s hs => ?_,fun h => absurd rfl h⟩
  rw [List.mem_singleton.mp hs]
  exact ⟨le_rfl,rfl⟩

theorem afterSecureInit_unread {d : Daemon} (k : Answers) (h : Unread d)
    (hp : d.phase = .securing) : Unread (afterSecureInit k d) := by
  have he : afterSecureInit k d = notifyReady k d := by
    simp only [afterSecureInit,protect,h.legacyMode,h.enforcingMode,Bool.false_and,
      Bool.false_eq_true,if_false]
  rw [he]
  unfold notifyReady
  split_ifs
  · refine ⟨Or.inr (Or.inl rfl),nofun,h.enforcingMode,h.legacyMode,h.ret,h.exitSignal,h.watchdog,
      fun s hs => ?_,h.poweroffs⟩
    rcases List.mem_append.mp hs with hm | hm
    · exact h.sources s hm
    · rw [List.mem_singleton.mp hm]
      exact ⟨Nat.le_add_left _ _,rfl⟩
  · exact ⟨Or.inr (Or.inr (Or.inr ⟨rfl,h.ready hp⟩)),nofun,h.enforcingMode,h.legacyMode,h.ret,
      h.exitSignal,h.watchdog,h.sources,h.poweroffs⟩

theorem busConnected_unread {d : Daemon} (h : Unread d) :
    Unread (busConnected d) ∧ (busConnected d).phase = .exited .success ∧
      (busConnected d).poweroffs = d.poweroffs := by
  have he : busConnected d = { gSourceRemove d d.timeoutId with
      timeoutId := 0, efi := rootPivot d.efi, bootPartitionWritable := false,
      phase := .exited .success } := by
    simp [busConnected,serviceRun,finish,leave,gSourceRemove,allowWritingToBootPartition,
      h.enforcingMode,h.exitSignal,h.ret,h.watchdog]
  rw [he]
  refine ⟨⟨Or.inr (Or.inr (Or.inl rfl)),fun hp => (by cases hp),h.enforcingMode,h.legacyMode,h.ret,
    h.exitSignal,h.watchdog,fun s hs => h.sources s (List.mem_of_mem_filter hs),h.poweroffs⟩,rfl,rfl⟩

theorem dispatch_unread {d : Daemon} (h : Unread d) {s : Source} (hs : s ∈ d.sources)
    (hdue : s.due ≤ d.now) : Unread (afterDispatch (dispatch d s)) := by
  obtain ⟨hlate,hc⟩ := h.sources s hs
  have hd : dispatch d s = paygSystemPoweroff d s false := by
    unfold dispatch
    rw [hc]
  have hsame : afterDispatch (dispatch d s) = paygSystemPoweroff d s false := by
    rw [hd]
    refine if_neg fun hz => ?_
    rcases h.phase with hp | hp | hp | ⟨hp,-⟩ <;> cases hp.symm.trans hz.1
  rw [hsame]
  exact ⟨h.phase,h.ready,h.enforcingMode,h.legacyMode,h.ret,h.exitSignal,h.watchdog,
    fun t ht => h.sources t (List.mem_of_mem_erase ht),fun _ => hlate.trans hdue⟩

theorem step_unread {k : Answers} {dep : Deployment} {d d' : Daemon} {event : Event}
    (h : Unread d) (hs : step k dep d event = some d') : Unread d' := by
  cases event with
  | pass secs =>
    simp only [step] at hs
    split_ifs at hs
    cases hs
    exact ⟨h.phase,h.ready,h.enforcingMode,h.legacyMode,h.ret,h.exitSignal,h.watchdog,h.sources,
      fun hp => (h.poweroffs hp).trans (Nat.le_add_right _ _)⟩
  | dispatch s =>
    simp only [step] at hs
    split_ifs at hs with hd
    cases hs
    exact dispatch_unread h hd.2.1 hd.2.2
  | service op =>
    simp only [step] at hs
    split_ifs at hs
    obtain ⟨sv,-,rfl⟩ := Option.map_eq_some_iff.mp hs
    exact ⟨h.phase,h.ready,h.enforcingMode,h.legacyMode,h.ret,h.exitSignal,h.watchdog,h.sources,
      h.poweroffs⟩
  | secureInitReturns =>
    simp only [step] at hs
    split_ifs at hs with hp
    obtain ⟨sv,-,rfl⟩ := Option.map_eq_some_iff.mp hs
    exact afterSecureInit_unread k ⟨h.phase,h.ready,h.enforcingMode,h.legacyMode,h.ret,h.exitSignal,
      h.watchdog,h.sources,h.poweroffs⟩ hp
  | busConnected =>
    simp only [step] at hs
    split_ifs at hs
    cases hs
    exact (busConnected_unread h).1
  | unlocked answers =>
    simp only [step] at hs
    split_ifs at hs
    cases hs
    unfold providerUnlockedCb
    split_ifs
    · exact ⟨h.phase,h.ready,h.enforcingMode,h.legacyMode,h.ret,h.exitSignal,h.watchdog,h.sources,
        h.poweroffs⟩
    · exact h
  | runReturns error =>
    simp only [step] at hs
    split_ifs at hs with hr
    rcases h.phase with hp | hp | hp | ⟨hp,-⟩ <;> cases hp.symm.trans hr.1

/-- A daemon in the initramfs that cannot reach the variables never runs its service.
It announces a power-off in twenty minutes, but ends with success as soon as the bus is
reached: when that is earlier, without any power-off having been requested. -/
theorem unread_power_off_lost (k : Answers) (dep : Deployment) (store : EfiVarFs) (o : Options)
    (ho : k.options = some o) (hp : o.printLevel = false) (hi : k.initrdRelease = true)
    (e : EfiInitError) (herr : eospaygEfiInit k.efiInit = .error e)
    (events : List Event) (t : Daemon)
    (hr : run (step k dep) events (main k dep store) = some t) :
    t.enforcingMode = false ∧ t.phase ≠ .running ∧ t.watchdog = false ∧
      (t.now < 1200 → t.poweroffs = 0) ∧
      ∀ d', step k dep t .busConnected = some d' →
        d'.phase = .exited .success ∧ d'.poweroffs = t.poweroffs := by
  have h : Unread t :=
    run_invariant (fun _ _ _ hu hs => step_unread hu hs) (main_unread ho hp hi herr) hr
  refine ⟨h.enforcingMode,?_,h.watchdog,fun hlt => ?_,fun d' hs => ?_⟩
  · intro hrun
    rcases h.phase with hp | hp | hp | ⟨hp,-⟩ <;> cases hp.symm.trans hrun
  · by_contra hne
    exact absurd (h.poweroffs hne) (Nat.not_le.mpr hlt)
  · simp only [step] at hs
    split_ifs at hs
    cases hs
    exact (busConnected_unread h).2

def unreachableAnswers : Answers :=
  { grantedAnswers with efiInit := ⟨some enoent, none, none⟩ }

def busAfterAMinute : List Event :=
  [.service (.loader (.initCb 0)), .service (.loader .loadCb), .service (.loader .allShutDownCb),
    .secureInitReturns, .pass 60]

theorem unread_power_off_lost_example :
    ∃ t d', run (step unreachableAnswers onePlugin) busAfterAMinute
        (main unreachableAnswers onePlugin activeStore) = some t ∧
      step unreachableAnswers onePlugin t .busConnected = some d' ∧
      d'.phase = .exited .success ∧ d'.poweroffs = t.poweroffs := by
  obtain ⟨d',hd⟩ := Option.isSome_iff_exists.mp (show (run (step unreachableAnswers onePlugin)
    (busAfterAMinute++[.busConnected]) (main unreachableAnswers onePlugin activeStore)).isSome by
      decide +kernel)
  obtain ⟨t,ht,hs⟩ := run_snoc.mp hd
  exact ⟨t,d',ht,hs,(unread_power_off_lost unreachableAnswers onePlugin activeStore ⟨false, true⟩ rfl
    rfl rfl (.failedToOpen enoent) rfl busAfterAMinute t ht).2.2.2.2 d' hs⟩

end EosPayg.DaemonEfi
