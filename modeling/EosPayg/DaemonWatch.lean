import EosPayg.DaemonEnd

/-!
# What keeps the watchdog quiet

Once the watchdog is open, exactly one source pings it, sixty seconds after the last
ping, and no part of the daemon takes that source away. It outlives the service: a
daemon whose service failed goes on pinging for ever.
-/

set_option autoImplicit false

namespace EosPayg.DaemonWatch
open EosPayg.DaemonMain EosPayg.DaemonEnd EosPayg.DebugFlags EosPayg.GuardedRun
open EosPayg.EfiVariables (EfiVarFs efivarfsOps)
open EosPayg.ServiceStartup (Deployment)

def isPing (s : Source) : Bool := s.callback == .pingWatchdog

def pings (d : Daemon) : List Source := d.sources.filter isPing

def pingSource (id lastPing : ℕ) : Source := ⟨id, lastPing+60, 60, .pingWatchdog⟩

def Idle (d : Daemon) : Prop := ∀ s ∈ d.sources, d.now < s.due

/-- One source pings the watchdog if it is open, and none if it is not. -/
structure Guarded (d : Daemon) : Prop where
  enforcing : d.watchdog = true → d.enforcingMode = true
  closed : d.watchdog = false → pings d = []
  opened : d.watchdog = true → ∃ id, id ≠ 0 ∧ id < d.nextId ∧ id ≠ d.timeoutId ∧
    pings d = [pingSource id d.lastPing]

theorem guarded_of_eq {d e : Daemon} (h : Guarded d) (he : e.enforcingMode = d.enforcingMode)
    (hw : e.watchdog = d.watchdog) (hs : e.sources = d.sources) (hn : e.nextId = d.nextId)
    (ht : e.timeoutId = d.timeoutId) (hl : e.lastPing = d.lastPing) : Guarded e := by
  have hp : pings e = pings d := by rw [pings,pings,hs]
  constructor
  · rw [hw,he]
    exact h.enforcing
  · rw [hw,hp]
    exact h.closed
  · rw [hw,hp,hn,ht,hl]
    exact h.opened

theorem timeoutAdd_guarded {d e : Daemon} (h : Guarded d) (secs : ℕ)
    (callback : Callback) (hc : callback ≠ .pingWatchdog)
    (he : e.enforcingMode = d.enforcingMode) (hw : e.watchdog = d.watchdog)
    (hs : e.sources = (gTimeoutAddSeconds d secs callback).sources)
    (hn : e.nextId = d.nextId+1) (ht : e.timeoutId = d.timeoutId ∨ e.timeoutId = d.nextId)
    (hl : e.lastPing = d.lastPing) : Guarded e := by
  have hp : pings e = pings d := by
    have hnot : isPing ⟨d.nextId, d.now+secs, secs, callback⟩ = false := by
      simpa [isPing] using hc
    rw [pings,pings,hs]
    show (d.sources++[_]).filter isPing = _
    rw [List.filter_append,List.filter_singleton,hnot,Bool.cond_false,List.append_nil]
  constructor
  · rw [hw,he]
    exact h.enforcing
  · rw [hw,hp]
    exact h.closed
  · rw [hw,hp,hn,hl]
    intro ho
    obtain ⟨id,h0,hlt,hne,hps⟩ := h.opened ho
    refine ⟨id,h0,hlt.trans (Nat.lt_succ_self _),?_,hps⟩
    rcases ht with ht | ht
    · exact fun hi => hne (hi.trans ht)
    · exact fun hi => hlt.ne (hi.trans ht)

theorem closed_guarded {d : Daemon} (hw : d.watchdog = false) (hp : pings d = []) : Guarded d :=
  ⟨fun ho => absurd (hw.symm.trans ho) Bool.false_ne_true,fun _ => hp,
    fun ho => absurd (hw.symm.trans ho) Bool.false_ne_true⟩

structure Closed (d : Daemon) : Prop where
  watchdog : d.watchdog = false
  pings : pings d = []

theorem timeoutAdd_closed {d : Daemon} (h : Closed d) (secs : ℕ) (callback : Callback)
    (hc : callback ≠ .pingWatchdog) : Closed (gTimeoutAddSeconds d secs callback) := by
  refine ⟨h.watchdog,?_⟩
  have hnot : isPing ⟨d.nextId, d.now+secs, secs, callback⟩ = false := by
    simpa [isPing] using hc
  show (d.sources++[_]).filter isPing = []
  rw [List.filter_append,List.filter_singleton,hnot,Bool.cond_false,List.append_nil]
  exact h.pings

theorem addTimeouts_closed {d : Daemon} (h : Closed d)
    (timeouts : List (ℕ × HardwareClock.Callback)) : Closed (addTimeouts d timeouts) := by
  induction timeouts generalizing d with
  | nil => exact h
  | cons t ts ih =>
    refine ih (timeoutAdd_closed h _ _ ?_)
    cases t.2 <;> exact nofun

theorem initramfs_closed {d : Daemon} (k : Answers) (o : Options) (h : Closed d) :
    Closed (initramfs k o d) := by
  have hinit : Closed (efiInit k.efiInit d) := by
    unfold efiInit
    split
    · exact ⟨h.watchdog,h.pings⟩
    · exact timeoutAdd_closed h _ (.paygSystemPoweroff false) nofun
  have hcheck (e : EfiVariables.Efi EfiVarFs) :
      Closed { checkEnforcing k o (efiInit k.efiInit d) with efi := e } :=
    ⟨hinit.watchdog,hinit.pings⟩
  have hlevel : Closed (checkSecuritylevel k (checkEnforcing k o (efiInit k.efiInit d))) := by
    unfold checkSecuritylevel
    dsimp only
    split_ifs
    · exact hcheck _
    · exact timeoutAdd_closed (hcheck _) _ (.paygSystemPoweroff false) nofun
    · exact ⟨hinit.watchdog,hinit.pings⟩
  exact addTimeouts_closed hlevel _

theorem main_closed (k : Answers) (dep : Deployment) (store : EfiVarFs) :
    Closed (main k dep store) := by
  unfold main
  split
  · exact ⟨rfl,rfl⟩
  · rename_i o ho
    split_ifs
    · exact ⟨rfl,rfl⟩
    · have h := initramfs_closed k o (d := started store) ⟨rfl,rfl⟩
      exact ⟨h.watchdog,h.pings⟩
    · exact ⟨rfl,rfl⟩

theorem leave_guarded {d : Daemon} (h : Guarded d) : Guarded (leave d) := by
  unfold leave
  split
  · exact guarded_of_eq h rfl rfl rfl rfl rfl rfl
  · split_ifs <;> exact guarded_of_eq h rfl rfl rfl rfl rfl rfl

theorem finish_guarded {d : Daemon} (h : Guarded d) (error : Option RunError) :
    Guarded (finish d error) := by
  have hadd (e : Daemon) (he : e.enforcingMode = d.enforcingMode) (hw : e.watchdog = d.watchdog)
      (secs : ℕ) (clears : Bool)
      (hs : e.sources = (gTimeoutAddSeconds d secs (.paygSystemPoweroff clears)).sources)
      (hn : e.nextId = d.nextId+1) (ht : e.timeoutId = d.nextId)
      (hl : e.lastPing = d.lastPing) : Guarded e :=
    timeoutAdd_guarded h secs (.paygSystemPoweroff clears) nofun he hw hs hn
      (Or.inr ht) hl
  unfold finish
  dsimp only
  cases error with
  | none =>
    split_ifs
    · exact guarded_of_eq h rfl rfl rfl rfl rfl rfl
    · exact leave_guarded (guarded_of_eq h rfl rfl rfl rfl rfl rfl)
  | some error =>
    cases error with
    | signalled n =>
      split_ifs
      · exact hadd _ rfl rfl 0 true rfl rfl rfl rfl
      · exact leave_guarded (hadd _ rfl rfl 0 true rfl rfl rfl rfl)
    | other =>
      split_ifs
      · exact hadd _ rfl rfl _ false rfl rfl rfl rfl
      · exact leave_guarded (hadd _ rfl rfl _ false rfl rfl rfl rfl)

theorem serviceRun_guarded {d : Daemon} (h : Guarded d) : Guarded (serviceRun d) := by
  unfold serviceRun
  split_ifs
  · exact guarded_of_eq h rfl rfl rfl rfl rfl rfl
  · exact finish_guarded h none

theorem protect_guarded {d : Daemon} (k : Answers) (h : Guarded d) : Guarded (protect k d) := by
  have hnotify {e : Daemon} (he : Guarded e) : Guarded (notifyReady k e) := by
    unfold notifyReady
    split_ifs
    · exact timeoutAdd_guarded he _ (.paygSystemPoweroff false) nofun rfl rfl rfl rfl
        (Or.inr rfl) rfl
    · exact guarded_of_eq he rfl rfl rfl rfl rfl rfl
  unfold protect
  split_ifs
  · exact hnotify (guarded_of_eq h rfl rfl rfl rfl rfl rfl)
  · exact guarded_of_eq h rfl rfl rfl rfl rfl rfl
  · exact hnotify h

theorem startWatchdog_guarded {d : Daemon} (h : Closed d) (he : d.enforcingMode = true)
    (hn : d.nextId ≠ 0) (ht : d.timeoutId = 0) : Guarded (startWatchdog d) := by
  refine ⟨fun _ => he,nofun,fun _ => ?_⟩
  refine ⟨d.nextId,hn,Nat.lt_succ_self _,?_,?_⟩
  · show d.nextId ≠ d.timeoutId
    rwa [ht]
  · show (d.sources++[pingSource d.nextId d.now]).filter isPing = _
    rw [List.filter_append]
    show pings d++_ = _
    rw [h.pings]
    rfl

theorem afterSecureInit_guarded {d : Daemon} (k : Answers) (h : Closed d) (hn : d.nextId ≠ 0)
    (ht : d.timeoutId = 0) : Guarded (afterSecureInit k d) := by
  have hg := closed_guarded h.watchdog h.pings
  unfold afterSecureInit
  split_ifs with hl hw ho
  · exact serviceRun_guarded hg
  · exact protect_guarded k (startWatchdog_guarded h (Bool.and_eq_true_iff.mp hw).1 hn ht)
  · exact guarded_of_eq hg rfl rfl rfl rfl rfl rfl
  · exact protect_guarded k hg

theorem busConnected_guarded {d : Daemon} (h : Guarded d) : Guarded (busConnected d) := by
  have hp : pings (gSourceRemove d d.timeoutId) =
      (pings d).filter (fun s => s.id ≠ d.timeoutId) := by
    show (d.sources.filter _).filter isPing = (d.sources.filter isPing).filter _
    rw [List.filter_filter,List.filter_filter]
    exact List.filter_congr fun s _ => Bool.and_comm _ _
  refine serviceRun_guarded ⟨h.enforcing,fun hw => ?_,fun hw => ?_⟩
  · refine hp.trans ?_
    rw [h.closed hw]
    rfl
  · obtain ⟨id,h0,hlt,hne,hps⟩ := h.opened hw
    have hkept : (pings d).filter (fun s => s.id ≠ d.timeoutId) = [pingSource id d.lastPing] := by
      rw [hps]
      exact List.filter_cons_of_pos (decide_eq_true hne)
    exact ⟨id,h0,hlt,h0,hp.trans hkept⟩

theorem again_pings (d : Daemon) (s : Source) :
    pings (again d s) =
      (pings d).map (fun t => if t = s then { t with due := d.now+t.interval } else t) := by
  show (d.sources.map _).filter isPing = _
  rw [List.filter_map]
  congr 1
  refine List.filter_congr fun t _ => ?_
  show isPing (if t = s then _ else t) = isPing t
  split_ifs <;> rfl

theorem dispatch_guarded {d : Daemon} (h : Guarded d) {s : Source} (hs : s ∈ d.sources) :
    Guarded (dispatch d s) := by
  unfold dispatch
  split
  · rename_i clears hc
    have hnot : s ∉ pings d := fun hm => by
      have hi := (List.mem_filter.mp hm).2
      rw [isPing,hc] at hi
      cases hi
    have hp : pings (paygSystemPoweroff d s clears) = pings d := by
      show (d.sources.erase s).filter isPing = _
      rw [← List.erase_filter]
      exact List.erase_of_not_mem hnot
    refine ⟨h.enforcing,fun hw => hp.trans (h.closed hw),fun hw => ?_⟩
    obtain ⟨id,h0,hlt,hne,hps⟩ := h.opened hw
    refine ⟨id,h0,hlt,?_,hp.trans hps⟩
    show id ≠ if clears then 0 else d.timeoutId
    split_ifs
    · exact h0
    · exact hne
  · rename_i hc
    have hm : s ∈ pings d := List.mem_filter.mpr ⟨hs,by rw [isPing,hc]; rfl⟩
    refine ⟨h.enforcing,fun hw => ?_,fun hw => ?_⟩
    · rw [h.closed hw] at hm
      cases hm
    · obtain ⟨id,h0,hlt,hne,hps⟩ := h.opened hw
      refine ⟨id,h0,hlt,hne,?_⟩
      rw [hps,List.mem_singleton] at hm
      rw [again_pings]
      show (pings d).map _ = [pingSource id d.now]
      rw [hps,List.map_singleton,hm,if_pos rfl]
      rfl
  · rename_i hc
    have hp : pings (again d s) = pings d := by
      rw [again_pings]
      refine List.map_congr_left (fun t ht => if_neg ?_) |>.trans (List.map_id _)
      rintro rfl
      have hi := (List.mem_filter.mp ht).2
      rw [isPing,hc] at hi
      cases hi
    refine ⟨h.enforcing,fun hw => hp.trans (h.closed hw),fun hw => ?_⟩
    obtain ⟨id,h0,hlt,hne,hps⟩ := h.opened hw
    exact ⟨id,h0,hlt,hne,hp.trans hps⟩

structure Watched (d : Daemon) : Prop where
  guarded : Guarded d
  securing : d.phase = .securing → d.watchdog = false

theorem step_watched {k : Answers} {dep : Deployment} {d d' : Daemon} {event : Event}
    (he : Ending d) (h : Watched d) (hs : step k dep d event = some d') : Watched d' := by
  have hg := h.guarded
  cases event with
  | pass secs =>
    simp only [step] at hs
    split_ifs at hs
    cases hs
    exact ⟨guarded_of_eq hg rfl rfl rfl rfl rfl rfl,h.securing⟩
  | dispatch s =>
    simp only [step] at hs
    split_ifs at hs with hd
    cases hs
    have hg' := dispatch_guarded hg hd.2.1
    have hph := (dispatch_keeps d s).1
    unfold afterDispatch
    split_ifs with hz
    · exact ⟨leave_guarded hg',fun hp => absurd hp (leave_phase _).1⟩
    · exact ⟨hg',fun hp => (dispatch_watchdog d s).trans (h.securing (hph.symm.trans hp))⟩
  | service op =>
    simp only [step] at hs
    split_ifs at hs
    obtain ⟨sv,-,rfl⟩ := Option.map_eq_some_iff.mp hs
    exact ⟨guarded_of_eq hg rfl rfl rfl rfl rfl rfl,h.securing⟩
  | secureInitReturns =>
    simp only [step] at hs
    split_ifs at hs with hp
    obtain ⟨sv,-,rfl⟩ := Option.map_eq_some_iff.mp hs
    simp only [Ending,hp] at he
    have hw := h.securing hp
    refine ⟨afterSecureInit_guarded k ⟨hw,hg.closed hw⟩ he.1.nextId he.2.1,?_⟩
    exact fun hc => absurd hc (afterSecureInit_phase k _)
  | busConnected =>
    simp only [step] at hs
    split_ifs at hs
    cases hs
    exact ⟨busConnected_guarded hg,fun hc => absurd hc (serviceRun_phase _).1⟩
  | unlocked answers =>
    simp only [step] at hs
    split_ifs at hs
    cases hs
    unfold providerUnlockedCb
    split_ifs
    · exact ⟨guarded_of_eq hg rfl rfl rfl rfl rfl rfl,h.securing⟩
    · exact h
  | runReturns error =>
    simp only [step] at hs
    split_ifs at hs
    cases hs
    exact ⟨finish_guarded hg error,fun hc => absurd hc (finish_phase d error).1⟩

theorem run_watched {k : Answers} {dep : Deployment} {events : List Event} {s t : Daemon}
    (he : Ending s) (h : Watched s) (hr : run (step k dep) events s = some t) : Watched t := by
  have hboth : Ending t ∧ Watched t :=
    run_invariant (I := fun d => Ending d ∧ Watched d)
      (fun _ _ _ hi hs => ⟨step_ending hi.1 hs,step_watched hi.1 hi.2 hs⟩) ⟨he,h⟩ hr
  exact hboth.2

theorem main_watched (k : Answers) (dep : Deployment) (store : EfiVarFs) :
    Watched (main k dep store) := by
  have h := main_closed k dep store
  exact ⟨closed_guarded h.watchdog h.pings,fun _ => h.watchdog⟩

theorem guarded_idle {d : Daemon} (h : Guarded d) (hw : d.watchdog = true) (hi : Idle d) :
    d.now < d.lastPing+60 := by
  obtain ⟨id,-,-,-,hps⟩ := h.opened hw
  have hm : pingSource id d.lastPing ∈ pings d := by
    rw [hps]
    exact List.mem_singleton_self _
  exact hi _ (List.mem_of_mem_filter hm)

/-- Once the watchdog is open the daemon does not stop pinging it: it is pinged every
minute in every loop, and the process ends only before systemd was told to go on, or
after a signal and a request to power off. -/
theorem watchdog_pinged (k : Answers) (dep : Deployment) (store : EfiVarFs) (o : Options)
    (ho : k.options = some o) (hp : o.printLevel = false) (events : List Event) (t : Daemon)
    (hr : run (step k dep) events (main k dep store) = some t) (hw : t.watchdog = true) :
    (Idle t → t.now < t.lastPing+60) ∧
      ∀ status, t.phase = .exited status →
        status = .failure ∧ t.ready = false ∨ ∃ n, status = .signal n ∧ 0 < t.poweroffs := by
  have hm := main_early k dep store ho hp
  have hstart : Ending (main k dep store) := by
    rw [Ending,hm.phase]
    exact ⟨hm.quiet,hm.timeoutId,hm.ready⟩
  have hwatch := run_watched hstart (main_watched k dep store) hr
  refine ⟨guarded_idle hwatch.guarded hw,fun status hst => ?_⟩
  have hend := run_ending ho hp hr
  rw [Ending,hst] at hend
  cases status with
  | failure => exact Or.inl ⟨rfl,hend⟩
  | signal n => exact Or.inr ⟨n,rfl,hend⟩
  | success =>
    have hoff := (hend (hwatch.guarded.enforcing hw)).1
    rw [hw] at hoff
    cases hoff

theorem watchdog_pinged_example :
    ∃ t, run (step grantedAnswers onePlugin) (serviceStarted++[.dispatch (pingSource 2 0)])
        (main grantedAnswers onePlugin activeStore) = some t ∧
      t.watchdog = true ∧ (Idle t → t.now < t.lastPing+60) := by
  obtain ⟨t,ht⟩ := Option.isSome_iff_exists.mp (show (run (step grantedAnswers onePlugin)
    (serviceStarted++[.dispatch (pingSource 2 0)])
    (main grantedAnswers onePlugin activeStore)).isSome by decide +kernel)
  have hd : (run (step grantedAnswers onePlugin) (serviceStarted++[.dispatch (pingSource 2 0)])
      (main grantedAnswers onePlugin activeStore)).map Daemon.watchdog = some true := by
    decide +kernel
  rw [ht] at hd
  have hw := Option.some.inj hd
  exact ⟨t,ht,hw,(watchdog_pinged grantedAnswers onePlugin activeStore ⟨false, true⟩ rfl rfl _ t ht
    hw).1⟩

structure Failed (source : Source) (requests : ℕ) (d : Daemon) : Prop where
  phase : d.phase = .spinning
  timeoutId : d.timeoutId ≠ 0
  clears : NoneClears d
  kept : requests ≤ d.poweroffs
  requested : source ∈ d.sources ∨ requests < d.poweroffs

theorem failed_of_eq {source : Source} {requests : ℕ} {d e : Daemon} (h : Failed source requests d)
    (hp : e.phase = d.phase) (ht : e.timeoutId = d.timeoutId) (hs : e.sources = d.sources)
    (hn : e.poweroffs = d.poweroffs) : Failed source requests e := by
  refine ⟨hp.trans h.phase,ht.trans_ne h.timeoutId,fun s hm => h.clears s (hs ▸ hm),?_,?_⟩
  · rw [hn]
    exact h.kept
  · rw [hs,hn]
    exact h.requested

theorem again_mem {d : Daemon} {s t : Source} (ht : t ∈ d.sources) (hne : t ≠ s) :
    t ∈ (again d s).sources := List.mem_map.mpr ⟨t,ht,if_neg hne⟩

theorem dispatch_failed {source : Source} {requests : ℕ} {d : Daemon}
    (hsrc : source.callback = .paygSystemPoweroff false) (h : Failed source requests d)
    {s : Source} (hs : s ∈ d.sources) :
    Failed source requests (afterDispatch (dispatch d s)) := by
  have hf : Failed source requests (dispatch d s) := by
    unfold dispatch
    split
    · rename_i clears hc
      cases clears with
      | true => exact absurd hc (h.clears s hs)
      | false =>
        exact ⟨h.phase,h.timeoutId,erase_clears h.clears s false,h.kept.trans (Nat.le_succ _),
          Or.inr (Nat.lt_succ_of_le h.kept)⟩
    · rename_i hc
      refine ⟨h.phase,h.timeoutId,again_clears (d := { d with lastPing := d.now }) h.clears s,
        h.kept,h.requested.imp_left fun hm => again_mem hm ?_⟩
      rintro rfl
      cases hsrc.symm.trans hc
    · rename_i hc
      refine ⟨h.phase,h.timeoutId,again_clears h.clears s,h.kept,
        h.requested.imp_left fun hm => again_mem hm ?_⟩
      rintro rfl
      cases hsrc.symm.trans hc
  have he : afterDispatch (dispatch d s) = dispatch d s := if_neg (fun hz => hf.timeoutId hz.2)
  rwa [he]

theorem step_failed {k : Answers} {dep : Deployment} {source : Source} {requests : ℕ}
    {d d' : Daemon} {event : Event} (hsrc : source.callback = .paygSystemPoweroff false)
    (h : Failed source requests d) (hs : step k dep d event = some d') :
    Failed source requests d' := by
  cases event with
  | pass secs =>
    simp only [step] at hs
    split_ifs at hs
    cases hs
    exact failed_of_eq h rfl rfl rfl rfl
  | dispatch s =>
    simp only [step] at hs
    split_ifs at hs with hd
    cases hs
    exact dispatch_failed hsrc h hd.2.1
  | service op =>
    simp only [step] at hs
    split_ifs at hs
    obtain ⟨sv,-,rfl⟩ := Option.map_eq_some_iff.mp hs
    exact failed_of_eq h rfl rfl rfl rfl
  | unlocked answers =>
    simp only [step] at hs
    split_ifs at hs
    cases hs
    unfold providerUnlockedCb
    split_ifs
    · exact failed_of_eq h rfl rfl rfl rfl
    · exact h
  | secureInitReturns => simp [step,h.phase] at hs
  | busConnected => simp [step,h.phase] at hs
  | runReturns error => simp [step,h.phase] at hs

theorem error_failed {k : Answers} {dep : Deployment} {d d' : Daemon} (he : Ending d)
    (hs : step k dep d (.runReturns (some .other)) = some d') :
    Failed ⟨d.nextId, d.now+1200, 1200, .paygSystemPoweroff false⟩ d.poweroffs d' := by
  have hp : d.phase = .running := by
    by_contra hn
    simp [step,hn] at hs
  obtain rfl : finish d (some .other) = d' := by simpa [step,hp] using hs
  simp only [Ending,hp] at he
  simp only [finish,allowWritingToBootPartition,ne_eq,he.1.nextId,not_false_iff,if_true]
  exact ⟨rfl,he.1.nextId,timeoutAdd_clears he.1.clears _ _ (by decide),le_rfl,
    Or.inl (List.mem_append_right _ (List.mem_singleton_self _))⟩

/-- A daemon whose service ended with an error other than a signal requests a power-off
after twenty minutes and never ends, whether the request is granted or not; a watchdog
it has opened it goes on pinging. -/
theorem error_never_ends (k : Answers) (dep : Deployment) (store : EfiVarFs) (o : Options)
    (ho : k.options = some o) (hp : o.printLevel = false) (before after : List Event)
    (d d' t : Daemon) (hd : run (step k dep) before (main k dep store) = some d)
    (hs : step k dep d (.runReturns (some .other)) = some d')
    (ht : run (step k dep) after d' = some t) :
    t.phase = .spinning ∧
      (Idle t → d.now+1200 ≤ t.now → d.poweroffs < t.poweroffs) ∧
      (Idle t → t.watchdog = true → t.now < t.lastPing+60) := by
  have hend := run_ending ho hp hd
  have hfail : Failed _ _ t :=
    run_invariant (fun _ _ _ h hs => step_failed rfl h hs) (error_failed hend hs) ht
  have hmain := main_early k dep store ho hp
  have hstart : Ending (main k dep store) := by
    rw [Ending,hmain.phase]
    exact ⟨hmain.quiet,hmain.timeoutId,hmain.ready⟩
  have hwhole : run (step k dep) (before++.runReturns (some .other)::after) (main k dep store) =
      some t := run_append_some.mpr ⟨d,hd,run_cons.mpr ⟨d',hs,ht⟩⟩
  have hwatch := run_watched hstart (main_watched k dep store) hwhole
  refine ⟨hfail.phase,fun hi hlate => ?_,fun hi hw => guarded_idle hwatch.guarded hw hi⟩
  rcases hfail.requested with hm | hreq
  · exact absurd (hi _ hm) (Nat.not_lt.mpr hlate)
  · exact hreq

def ungranted : List Event :=
  [.pass 1200, .dispatch ⟨4, 4800, 1200, .paygSystemPoweroff false⟩, .pass 86400]

theorem error_never_ends_example :
    ∃ d d' t, run (step grantedAnswers onePlugin) serviceStarted
        (main grantedAnswers onePlugin activeStore) = some d ∧
      step grantedAnswers onePlugin d (.runReturns (some .other)) = some d' ∧
      run (step grantedAnswers onePlugin) ungranted d' = some t ∧ t.phase = .spinning := by
  obtain ⟨t,ht⟩ := Option.isSome_iff_exists.mp (show (run (step grantedAnswers onePlugin)
    (serviceStarted++.runReturns (some .other)::ungranted)
    (main grantedAnswers onePlugin activeStore)).isSome by decide +kernel)
  obtain ⟨d,hd,hrest⟩ := run_append_some.mp ht
  obtain ⟨d',hs,hafter⟩ := run_cons.mp hrest
  exact ⟨d,d',t,hd,hs,hafter,(error_never_ends grantedAnswers onePlugin activeStore ⟨false, true⟩ rfl
    rfl serviceStarted ungranted d d' t hd hs hafter).1⟩

end EosPayg.DaemonWatch
