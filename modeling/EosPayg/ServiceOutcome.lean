import EosPayg.ServiceStartup

/-!
# How a startup of the service ends

Both calls of the loader, the manager and the registration are answered in any
order the callbacks allow, while the provider may say that it is enabled or not.
The startup ends once, and which provider it ends with is decided by what is
enabled before the root pivot, then by what is enabled after it, and only then by
the configuration.
-/

set_option autoImplicit false

namespace EosPayg.ServiceOutcome
open EosPayg.ServiceStartup EosPayg.ProviderSelection EosPayg.GuardedRun
open EosPayg.ProviderLoader hiding Operation step
open EosPayg.ManagerState (GIOError)
open EosPayg.MultiTask (maxUint)

def Enabled (plugins : List Plugin) (i : ℕ) : Prop :=
  i ∈ initialised plugins ∧ getEnabled plugins i = true

def NoneEnabled (plugins : List Plugin) : Prop :=
  ∀ i ∈ initialised plugins, getEnabled plugins i = false

def registration (registered : Bool) : Except ServiceError Unit :=
  if registered then .ok () else .error .register

/-- How a startup may end: with which provider, what is returned and how often the
service was told to exit. -/
inductive Settles (d : Deployment) (active : Bool) :
    Option Provider → Except ServiceError Unit → ℕ → Prop where
  | secure (i : ℕ) (registered : Bool) (h : Enabled d.securePlugins i) :
    Settles d active (some (.plugin i)) (registration registered) 0
  | late (i : ℕ) (registered : Bool) (hs : NoneEnabled d.securePlugins)
    (h : Enabled d.plugins i) : Settles d active (some (.plugin i)) (registration registered) 0
  | noProvider (hs : NoneEnabled d.securePlugins) (hl : NoneEnabled d.plugins)
    (ha : active = true) : Settles d active none (.error .noProvider) 0
  | configFile (hs : NoneEnabled d.securePlugins) (hl : NoneEnabled d.plugins)
    (ha : active = false) (hc : d.configEnabled = none) :
    Settles d active none (.error .configFile) 0
  | managerFailed (error : GIOError) (enabled : Bool) (hs : NoneEnabled d.securePlugins)
    (hl : NoneEnabled d.plugins) (ha : active = false) (hc : d.configEnabled = some enabled) :
    Settles d active none (.error (.manager error)) 0
  | disabled (enabled : Bool) (hs : NoneEnabled d.securePlugins) (hl : NoneEnabled d.plugins)
    (ha : active = false) (hc : d.configEnabled = some enabled)
    (hk : enabled = false ∨ d.keyFile = none) : Settles d active none (.ok ()) 1
  | manager (registered : Bool) (hs : NoneEnabled d.securePlugins) (hl : NoneEnabled d.plugins)
    (ha : active = false) (hc : d.configEnabled = some true) (hk : d.keyFile ≠ none) :
    Settles d active (some .epgManager) (registration registered) 0

def Working (plugins : List Plugin) (l : Loader) : Prop := Loading plugins l ∨ Stopping plugins l

theorem start_working (plugins : List Plugin) (hn : (started plugins).length < maxUint) :
    Working plugins (getFirstEnabledAsync plugins) := Or.inl (start_loading plugins hn).1

theorem start_remaining (plugins : List Plugin) (hn : (started plugins).length < maxUint) :
    remaining plugins (getFirstEnabledAsync plugins) ≤ 2*plugins.length+2 := by
  obtain ⟨hl,hi⟩ := start_loading plugins hn
  have hs := started_length plugins
  have hin := initialised_length plugins
  rw [loading_remaining hl,hi]
  omega

theorem working_step {plugins : List Plugin} (hn : (started plugins).length < maxUint)
    {l l' : Loader} {op : ProviderLoader.Operation} (h : Working plugins l) (hop : op ≠ .cancel)
    (hs : ProviderLoader.step l op = some l') :
    Working plugins l' ∧ remaining plugins l' < remaining plugins l := by
  rcases h with h | h
  · exact loading_step hn h hop hs
  · obtain ⟨hstop,hlt⟩ := stopping_step h hop hs
    exact ⟨Or.inr hstop,hlt⟩

theorem working_returned {plugins : List Plugin} {l : Loader} (h : Working plugins l)
    {result : Except GError (Option ℕ)} (hr : l.returned.head? = some result) :
    (∃ i, result = .ok (some i) ∧ Enabled plugins i) ∨
      result = .ok none ∧ NoneEnabled plugins := by
  rcases h with h | h
  · rw [h.untouched.returned] at hr
    cases hr
  · rw [h.returned] at hr
    cases hd : l.shutdownCalled with
    | false =>
      rw [hd] at hr
      cases hr
    | true =>
    rw [hd] at hr
    cases hr
    cases hc : l.chosen with
    | none => exact Or.inr ⟨rfl,h.disabled hc⟩
    | some i =>
      refine Or.inl ⟨i,rfl,?_,h.enabled i hc⟩
      exact h.selected.mem_iff.mp (List.mem_append_left _ (by simp [hc]))

theorem working_progress {plugins : List Plugin} {l : Loader} (h : Working plugins l)
    (hr : l.returned.head? = none) :
    ∃ op, op ≠ .cancel ∧ (ProviderLoader.step l op).isSome := by
  rcases h with h | h
  · exact loading_progress h
  · apply stopping_progress h
    rw [List.head?_eq_none_iff,h.returned] at hr
    split_ifs at hr with hc
    exact Bool.not_eq_true _ ▸ hc

structure Fresh (active : Bool) (s : EpgService) : Prop where
  active : s.eospaygActiveEfivar = active
  connected : s.connected = false
  holding : s.holding = false
  holds : s.holds = 0
  exits : s.exits = 0
  startup : s.startup = []

theorem fresh_held {active : Bool} {s : EpgService} (h : Fresh active s) : Held s :=
  ⟨by rw [h.holds,h.holding]; rfl,by rw [h.holding,h.connected]; rfl⟩

structure Securing (d : Deployment) (active : Bool) (s : EpgService) : Prop where
  fresh : Fresh active s
  provider : s.provider = none
  working : Working d.securePlugins s.loader

structure Secured (d : Deployment) (active : Bool) (s : EpgService) : Prop where
  fresh : Fresh active s
  provider : (∃ i, s.provider = some (.plugin i) ∧ Enabled d.securePlugins i) ∨
    s.provider = none ∧ NoneEnabled d.securePlugins

structure Searching (d : Deployment) (active : Bool) (s : EpgService) : Prop where
  fresh : Fresh active s
  provider : s.provider = none
  secure : NoneEnabled d.securePlugins
  working : Working d.plugins s.loader

structure FallingBack (d : Deployment) (active enabled : Bool) (s : EpgService) : Prop where
  fresh : Fresh active s
  provider : s.provider = none
  secure : NoneEnabled d.securePlugins
  late : NoneEnabled d.plugins
  inactive : active = false
  config : d.configEnabled = some enabled

structure Complete (d : Deployment) (active : Bool) (s : EpgService) : Prop where
  settled : ∃ result, s.startup = [result] ∧ Settles d active s.provider result s.exits
  held : Held s

def Phase (d : Deployment) (active : Bool) (s : EpgService) : Prop :=
  match s.stage with
  | .securing => Securing d active s
  | .secured => Secured d active s
  | .loading => Searching d active s
  | .creatingManager enabled => FallingBack d active enabled s
  | .complete => Complete d active s

/-- A bound on the callbacks of the startup still to come. -/
def work (d : Deployment) (s : EpgService) : ℕ :=
  match s.stage with
  | .securing => remaining d.securePlugins s.loader+2*d.plugins.length+7
  | .secured => 2*d.plugins.length+6
  | .loading => remaining d.plugins s.loader+3
  | .creatingManager _ => 1
  | .complete => 0

theorem fresh_of_eq {active : Bool} {s t : EpgService} (h : Fresh active s)
    (ha : t.eospaygActiveEfivar = s.eospaygActiveEfivar) (hc : t.connected = s.connected)
    (hh : t.holding = s.holding) (hn : t.holds = s.holds) (hx : t.exits = s.exits)
    (hs : t.startup = s.startup) : Fresh active t :=
  ⟨ha.trans h.active,hc.trans h.connected,hh.trans h.holding,hn.trans h.holds,hx.trans h.exits,
    hs.trans h.startup⟩

theorem startupComplete_complete {d : Deployment} {active : Bool} {s : EpgService}
    {provider : Provider} (hf : Fresh active s) (hp : s.provider = some provider)
    (registered : Bool) (hs : Settles d active (some provider) (registration registered) 0) :
    Complete d active (epgServiceStartupComplete s registered) ∧
      (epgServiceStartupComplete s registered).stage = .complete := by
  have hheld := startupComplete_held s registered (fresh_held hf)
  rw [startupComplete_eq s registered (fresh_held hf)] at hheld ⊢
  refine ⟨⟨⟨registration registered,?_,?_⟩,hheld⟩,rfl⟩
  · show s.startup++[_] = [_]
    rw [hf.startup]
    rfl
  · show Settles d active s.provider _ s.exits
    rwa [hp,hf.exits]

theorem return_complete {d : Deployment} {active : Bool} {s : EpgService} (hf : Fresh active s)
    (hp : s.provider = none) {result : Except ServiceError Unit}
    (hs : Settles d active none result 0) : Complete d active (gTaskReturn s result) := by
  refine ⟨⟨result,?_,?_⟩,⟨(fresh_held hf).holds,(fresh_held hf).holding⟩⟩
  · show s.startup++[result] = [result]
    rw [hf.startup]
    rfl
  · show Settles d active s.provider result s.exits
    rwa [hp,hf.exits]

theorem setProvider_fresh {active : Bool} {s : EpgService} (h : Fresh active s)
    (provider : Provider) : Fresh active (setProvider s provider) :=
  fresh_of_eq h rfl rfl rfl rfl rfl rfl

section Callbacks
variable {d : Deployment} {active : Bool} {s : EpgService}

theorem secureInitReturns_secured (h : Securing d active s)
    {result : Except GError (Option ℕ)} (hr : s.loader.returned.head? = some result) :
    Secured d active (ServiceStartup.secureInitReturns s result) ∧
      (ServiceStartup.secureInitReturns s result).stage = .secured := by
  rcases working_returned h.working hr with ⟨i,rfl,he⟩ | ⟨rfl,hn⟩
  · exact ⟨⟨fresh_of_eq h.fresh rfl rfl rfl rfl rfl rfl,Or.inl ⟨i,rfl,he⟩⟩,rfl⟩
  · exact ⟨⟨fresh_of_eq h.fresh rfl rfl rfl rfl rfl rfl,Or.inr ⟨h.provider,hn⟩⟩,rfl⟩

theorem startupAsync_phase (hpl : (started d.plugins).length < maxUint) (h : Secured d active s)
    (registered : Bool) :
    Phase d active (epgServiceStartupAsync d s registered) ∧
      work d (epgServiceStartupAsync d s registered) ≤ 2*d.plugins.length+5 := by
  rcases h.provider with ⟨i,hp,he⟩ | ⟨hp,hn⟩
  · have heq : epgServiceStartupAsync d s registered = epgServiceStartupComplete s registered :=
      if_pos (by rw [hp]; rfl)
    obtain ⟨hc,hst⟩ := startupComplete_complete h.fresh hp registered
      (.secure (d := d) i registered he)
    rw [heq,Phase,work,hst]
    exact ⟨hc,Nat.zero_le _⟩
  · have heq : epgServiceStartupAsync d s registered =
        { s with stage := .loading, loader := getFirstEnabledAsync d.plugins } :=
      if_neg (by rw [hp]; simp)
    rw [heq]
    refine ⟨⟨fresh_of_eq h.fresh rfl rfl rfl rfl rfl rfl,hp,hn,start_working d.plugins hpl⟩,?_⟩
    exact Nat.add_le_add_right (start_remaining d.plugins hpl) 3

theorem getFirstEnabledCb_phase (h : Searching d active s)
    {result : Except GError (Option ℕ)} (hr : s.loader.returned.head? = some result)
    (registered : Bool) :
    Phase d active (providerGetFirstEnabledCb d s result registered) ∧
      work d (providerGetFirstEnabledCb d s result registered) ≤ 1 := by
  rcases working_returned h.working hr with ⟨i,rfl,he⟩ | ⟨rfl,hn⟩
  · obtain ⟨hc,hst⟩ := startupComplete_complete (setProvider_fresh h.fresh (.plugin i)) rfl
      registered (.late (d := d) i registered h.secure he)
    show Phase d active (epgServiceStartupComplete _ registered) ∧
      work d (epgServiceStartupComplete _ registered) ≤ 1
    rw [Phase,work,hst]
    exact ⟨hc,Nat.zero_le 1⟩
  · have ha := h.fresh.active
    cases active with
    | true =>
      have he : providerGetFirstEnabledCb d s (.ok none) registered =
          gTaskReturn s (.error .noProvider) := by
        simp [providerGetFirstEnabledCb,ha]
      rw [he]
      exact ⟨return_complete h.fresh h.provider (.noProvider h.secure hn rfl),Nat.zero_le 1⟩
    | false =>
      cases hc : d.configEnabled with
      | none =>
        have he : providerGetFirstEnabledCb d s (.ok none) registered =
            gTaskReturn s (.error .configFile) := by
          simp [providerGetFirstEnabledCb,ha,hc]
        rw [he]
        exact ⟨return_complete h.fresh h.provider (.configFile h.secure hn rfl hc),Nat.zero_le 1⟩
      | some enabled =>
        have he : providerGetFirstEnabledCb d s (.ok none) registered =
            { s with stage := .creatingManager enabled } := by
          simp [providerGetFirstEnabledCb,ha,hc]
        rw [he]
        exact ⟨⟨fresh_of_eq h.fresh rfl rfl rfl rfl rfl rfl,h.provider,h.secure,hn,rfl,hc⟩,le_rfl⟩

theorem managerNewCb_complete {enabled : Bool} (h : FallingBack d active enabled s)
    (error : Option GIOError) (registered : Bool) :
    Complete d active
        (ServiceStartup.managerNewCb s (epgManagerNewFinish d enabled error) registered) ∧
      (ServiceStartup.managerNewCb s (epgManagerNewFinish d enabled error) registered).stage =
        .complete := by
  have hf := h.fresh
  cases error with
  | some e =>
    exact ⟨return_complete hf h.provider
      (.managerFailed e enabled h.secure h.late h.inactive h.config),rfl⟩
  | none =>
    rw [managerNewFinish_ok]
    cases hk : enabled && d.keyFile.isSome with
    | true =>
      rw [Bool.and_eq_true] at hk
      obtain ⟨rfl,hkey⟩ := hk
      exact startupComplete_complete (setProvider_fresh hf .epgManager) rfl registered
        (.manager registered h.secure h.late h.inactive h.config (Option.isSome_iff_ne_none.mp hkey))
    | false =>
      have hno : enabled = false ∨ d.keyFile = none := by
        rwa [Bool.and_eq_false_iff,Option.isSome_eq_false_iff,Option.isNone_iff_eq_none] at hk
      refine ⟨⟨⟨.ok (),?_,?_⟩,⟨(fresh_held hf).holds,(fresh_held hf).holding⟩⟩,rfl⟩
      · show s.startup++[.ok ()] = [.ok ()]
        rw [hf.startup]
        rfl
      · show Settles d active s.provider (.ok ()) (s.exits+1)
        rw [h.provider,hf.exits]
        exact .disabled enabled h.secure h.late h.inactive h.config hno

theorem enabledChanged_phase (h : Phase d active s) {i : ℕ} (hp : s.provider = some (.plugin i))
    (enabled : Bool) :
    Phase d active (ServiceStartup.enabledChanged s enabled) ∧
      work d (ServiceStartup.enabledChanged s enabled) = work d s := by
  obtain ⟨hst',hr',hp',hx'⟩ := enabledChanged_keeps s enabled
  unfold Phase at h ⊢
  unfold work
  rw [hst']
  cases hst : s.stage with
  | securing =>
    simp only [hst] at h
    cases h.provider.symm.trans hp
  | secured =>
    simp only [hst] at h ⊢
    have hs : ServiceStartup.enabledChanged s enabled = { s with providerEnabled := enabled } :=
      if_neg (h.fresh.connected ▸ Bool.false_ne_true)
    rw [hs]
    exact ⟨⟨fresh_of_eq h.fresh rfl rfl rfl rfl rfl rfl,h.provider⟩,trivial⟩
  | loading =>
    simp only [hst] at h
    cases h.provider.symm.trans hp
  | creatingManager enabled =>
    simp only [hst] at h
    cases h.provider.symm.trans hp
  | complete =>
    simp only [hst] at h ⊢
    refine ⟨⟨?_,enabledChanged_held s enabled h.held⟩,trivial⟩
    rw [hr',hp',hx']
    exact h.settled

theorem loader_phase (hsec : (started d.securePlugins).length < maxUint)
    (hpl : (started d.plugins).length < maxUint) (h : Phase d active s)
    (hst : s.stage = .securing ∨ s.stage = .loading) {op : ProviderLoader.Operation}
    (hop : op ≠ .cancel) {l : Loader} (hl : ProviderLoader.step s.loader op = some l) :
    Phase d active { s with loader := l } ∧ work d { s with loader := l } < work d s := by
  unfold Phase work at *
  rcases hst with hst | hst
  · simp only [hst] at h ⊢
    obtain ⟨hw,hlt⟩ := working_step hsec h.working hop hl
    refine ⟨⟨fresh_of_eq h.fresh rfl rfl rfl rfl rfl rfl,h.provider,hw⟩,?_⟩
    omega
  · simp only [hst] at h ⊢
    obtain ⟨hw,hlt⟩ := working_step hpl h.working hop hl
    refine ⟨⟨fresh_of_eq h.fresh rfl rfl rfl rfl rfl rfl,h.provider,h.secure,hw⟩,?_⟩
    omega

end Callbacks

theorem phase_step {d : Deployment} (hsec : (started d.securePlugins).length < maxUint)
    (hpl : (started d.plugins).length < maxUint) {active : Bool} {s s' : EpgService}
    {op : Operation} (h : Phase d active s) (hop : op ≠ .loader .cancel)
    (hs : step d s op = some s') :
    Phase d active s' ∧ work d s'+(if op.starts then 1 else 0) ≤ work d s := by
  cases op with
  | enabledChanged enabled =>
    simp only [step] at hs
    split at hs
    · rename_i i hp
      cases hs
      obtain ⟨hk,hw⟩ := enabledChanged_phase h hp enabled
      exact ⟨hk,hw.le⟩
    · cases hs
  | loader op =>
    simp only [step] at hs
    split_ifs at hs with hst
    obtain ⟨l,hl,rfl⟩ := Option.map_eq_some_iff.mp hs
    exact loader_phase hsec hpl h hst (fun hc => hop (congrArg _ hc)) hl
  | secureInitReturns =>
    simp only [step] at hs
    split_ifs at hs with hst
    obtain ⟨result,hres,rfl⟩ := Option.map_eq_some_iff.mp hs
    simp only [Phase,hst] at h
    obtain ⟨hph,hst'⟩ := secureInitReturns_secured h hres
    simp only [Phase,work,hst,hst',Operation.starts,if_true]
    exact ⟨hph,by omega⟩
  | startupAsync registered =>
    simp only [step] at hs
    split_ifs at hs with hst
    cases hs
    simp only [Phase,hst] at h
    obtain ⟨hph,hle⟩ := startupAsync_phase hpl h registered
    have hw : work d s = 2*d.plugins.length+6 := by rw [work,hst]
    rw [hw]
    exact ⟨hph,Nat.add_le_add_right hle 1⟩
  | getFirstEnabledCb registered =>
    simp only [step] at hs
    split_ifs at hs with hst
    obtain ⟨result,hres,rfl⟩ := Option.map_eq_some_iff.mp hs
    simp only [Phase,hst] at h
    obtain ⟨hph,hle⟩ := getFirstEnabledCb_phase h hres registered
    have hw : work d s = remaining d.plugins s.loader+3 := by rw [work,hst]
    rw [hw]
    refine ⟨hph,?_⟩
    show _+1 ≤ _
    omega
  | managerNewCb error registered =>
    simp only [step] at hs
    cases hst : s.stage with
    | creatingManager enabled =>
      rw [hst] at hs
      cases hs
      simp only [Phase,hst] at h
      obtain ⟨hph,hst'⟩ := managerNewCb_complete h error registered
      simp only [Phase,work,hst,hst',Operation.starts,if_true]
      exact ⟨hph,by omega⟩
    | securing => simp [hst] at hs
    | secured => simp [hst] at hs
    | loading => simp [hst] at hs
    | complete => simp [hst] at hs

theorem phase_held {d : Deployment} {active : Bool} {s : EpgService} (h : Phase d active s) :
    Held s := by
  unfold Phase at h
  cases hst : s.stage with
  | securing => simp only [hst] at h; exact fresh_held h.fresh
  | secured => simp only [hst] at h; exact fresh_held h.fresh
  | loading => simp only [hst] at h; exact fresh_held h.fresh
  | creatingManager enabled => simp only [hst] at h; exact fresh_held h.fresh
  | complete => simp only [hst] at h; exact h.held

theorem search_progress {d : Deployment} {plugins : List Plugin} {s : EpgService}
    (hw : Working plugins s.loader) (hst : s.stage = .securing ∨ s.stage = .loading)
    (op : Operation) (hop : op ≠ .loader .cancel) (hstarts : op.starts = true)
    (hres : ∀ result, s.loader.returned.head? = some result → (step d s op).isSome) :
    ∃ op, op ≠ .loader .cancel ∧ op.starts = true ∧ (step d s op).isSome := by
  cases hr : s.loader.returned.head? with
  | some result => exact ⟨op,hop,hstarts,hres result hr⟩
  | none =>
    obtain ⟨o,ho,hsome⟩ := working_progress hw hr
    refine ⟨.loader o,fun hc => ho (Operation.loader.inj hc),rfl,?_⟩
    simp only [step,if_pos hst,Option.isSome_map]
    exact hsome

/-- Until the startup is complete some callback of it can be called, and then none. -/
theorem phase_progress {d : Deployment} {active : Bool} {s : EpgService} (h : Phase d active s) :
    (s.startup = [] ∧ ∃ op, op ≠ .loader .cancel ∧ op.starts = true ∧ (step d s op).isSome) ∨
      ∃ result, s.startup = [result] ∧ Settles d active s.provider result s.exits ∧
        ∀ op, op.starts = true → step d s op = none := by
  unfold Phase at h
  cases hst : s.stage with
  | securing =>
    simp only [hst] at h
    refine Or.inl ⟨h.fresh.startup,search_progress h.working (Or.inl hst)
      .secureInitReturns nofun rfl fun result hr => ?_⟩
    simp [step,hst,hr]
  | secured =>
    simp only [hst] at h
    refine Or.inl ⟨h.fresh.startup,.startupAsync true,nofun,rfl,?_⟩
    simp [step,hst]
  | loading =>
    simp only [hst] at h
    refine Or.inl ⟨h.fresh.startup,search_progress h.working (Or.inr hst)
      (.getFirstEnabledCb true) nofun rfl fun result hr => ?_⟩
    simp [step,hst,hr]
  | creatingManager enabled =>
    simp only [hst] at h
    refine Or.inl ⟨h.fresh.startup,.managerNewCb none true,nofun,rfl,?_⟩
    simp [step,hst]
  | complete =>
    simp only [hst] at h
    obtain ⟨result,hr,hs⟩ := h.settled
    refine Or.inr ⟨result,hr,hs,fun op hop => ?_⟩
    cases op with
    | enabledChanged enabled => cases hop
    | _ => simp [step,hst]

theorem secureInit_phase (d : Deployment) (hsec : (started d.securePlugins).length < maxUint)
    (active : Bool) : Phase d active (epgServiceSecureInit d active) :=
  Securing.mk ⟨rfl,rfl,rfl,rfl,rfl,rfl⟩ rfl (start_working d.securePlugins hsec)

theorem run_phase {d : Deployment} (hsec : (started d.securePlugins).length < maxUint)
    (hpl : (started d.plugins).length < maxUint) {active : Bool} {s t : EpgService}
    {ops : List Operation} (h : Phase d active s) (hops : ∀ op ∈ ops, op ≠ .loader .cancel)
    (hr : run (step d) ops s = some t) :
    Phase d active t ∧ work d t+ops.countP Operation.starts ≤ work d s := by
  induction ops generalizing s with
  | nil =>
    cases hr
    exact ⟨h,le_rfl⟩
  | cons op ops ih =>
    obtain ⟨m,hs,ht⟩ := run_cons.mp hr
    obtain ⟨hm,hone⟩ := phase_step hsec hpl h (hops op List.mem_cons_self) hs
    obtain ⟨hph,hrest⟩ := ih hm (fun o ho => hops o (List.mem_cons_of_mem _ ho)) ht
    rw [List.countP_cons]
    exact ⟨hph,by omega⟩

/-- However the plugins behave and in whatever order the callbacks run, a startup is
returned once after a bounded number of them, with a provider that was enabled, or
without one for a reason; the manager is used only where no provider should have
been enabled and the configuration and a key enable it. The service is held exactly
while the provider it is connected to is enabled. -/
theorem startup_settles (d : Deployment) (hsec : (started d.securePlugins).length < maxUint)
    (hpl : (started d.plugins).length < maxUint) (active : Bool) (ops : List Operation)
    (hops : ∀ op ∈ ops, op ≠ .loader .cancel) (t : EpgService)
    (hr : run (step d) ops (epgServiceSecureInit d active) = some t) :
    ops.countP Operation.starts ≤ 2*d.securePlugins.length+2*d.plugins.length+9 ∧
      t.holds = (if t.connected && t.providerEnabled then 1 else 0) ∧
      (t.startup = [] ∧
          (∃ op, op ≠ .loader .cancel ∧ op.starts = true ∧ (step d t op).isSome) ∨
        ∃ result, t.startup = [result] ∧ Settles d active t.provider result t.exits ∧
          ∀ op, op.starts = true → step d t op = none) := by
  obtain ⟨hph,hle⟩ := run_phase hsec hpl (secureInit_phase d hsec active) hops hr
  have hstart : work d (epgServiceSecureInit d active) ≤
      2*d.securePlugins.length+2*d.plugins.length+9 := by
    have hrem := start_remaining d.securePlugins hsec
    show remaining d.securePlugins (getFirstEnabledAsync d.securePlugins)+_+7 ≤ _
    omega
  have hheld := phase_held hph
  refine ⟨by omega,?_,phase_progress hph⟩
  rw [hheld.holds,hheld.holding]

def lateDeployment : Deployment where
  securePlugins := [⟨true, true, true, true, false, true⟩]
  plugins := [⟨true, true, true, true, true, true⟩]
  configEnabled := some true
  keyFile := none

def lateOperations : List Operation :=
  [.loader (.initCb 0), .loader .loadCb, .loader .allShutDownCb, .secureInitReturns,
    .startupAsync true, .loader (.initCb 0), .loader .loadCb, .loader .allShutDownCb,
    .getFirstEnabledCb true, .enabledChanged false]

theorem startup_settles_example :
    ∃ t, run (step lateDeployment) lateOperations (epgServiceSecureInit lateDeployment true) =
        some t ∧ t.holds = 0 ∧ t.startup = [.ok ()] ∧
      Settles lateDeployment true (some (.plugin 0)) (.ok ()) t.exits := by
  obtain ⟨t,ht⟩ := Option.isSome_iff_exists.mp (show (run (step lateDeployment) lateOperations
    (epgServiceSecureInit lateDeployment true)).isSome by decide +kernel)
  have hd : (run (step lateDeployment) lateOperations
      (epgServiceSecureInit lateDeployment true)).map
        (fun s => (s.startup,s.provider,s.connected && s.providerEnabled)) =
      some ([.ok ()],some (.plugin 0),false) := by decide +kernel
  rw [ht] at hd
  simp only [Option.map_some,Option.some.injEq,Prod.mk.injEq] at hd
  obtain ⟨hst,hp,he⟩ := hd
  obtain ⟨-,hh,hend⟩ := startup_settles lateDeployment (by decide) (by decide) true lateOperations
    (by decide) t ht
  rw [he] at hh
  rcases hend with ⟨hn,-⟩ | ⟨result,hr,hs,-⟩
  · rw [hst] at hn
    cases hn
  · rw [hst] at hr
    cases hr
    rw [hp] at hs
    exact ⟨t,ht,hh,hst,hs⟩

end EosPayg.ServiceOutcome
