import EosPayg.ProviderLoader

/-!
# One provider is kept and the others are shut down

Without a cancellation the loader goes through two counts. While providers are
initialised, those that are still under way and those that are in the array make
up all that can be; once they are stopped, the chosen one and those that were
asked to shut down do.
-/

set_option autoImplicit false

namespace EosPayg.ProviderSelection
open EosPayg.GuardedRun EosPayg.ProviderLoader
open EosPayg.MultiTask (GTask TaskValue maxUint gTaskNew attach returnBoolean returnPointer)

def initialised (plugins : List Plugin) : List ℕ :=
  (started plugins).filter (initialises plugins)

structure Untouched (s : Loader) : Prop where
  cancelled : s.cancelled = false
  shutdowns : s.shutdowns = []
  shutdownAsync : s.shutdownAsync = []
  shutDown : s.shutDown = []
  shutdownCalled : s.shutdownCalled = false
  returned : s.returned = []

structure Loading (plugins : List Plugin) (s : Loader) : Prop where
  unchanged : s.plugins = plugins
  untouched : Untouched s
  task : Counting (.pointer ()) s.inits.length s.loadTask
  providers : (s.inits.filter (initialises plugins)++s.providers).Perm (initialised plugins)
  loadCalled : s.loadCalled = false
  chosen : s.chosen = none
  shutdownTask : s.shutdownTask = gTaskNew

structure Stopping (plugins : List Plugin) (s : Loader) : Prop where
  cancelled : s.cancelled = false
  inits : s.inits = []
  loadCalled : s.loadCalled = true
  selected : (s.chosen.toList++s.shutdownAsync).Perm (initialised plugins)
  enabled : ∀ i ∈ s.chosen, getEnabled plugins i = true
  disabled : s.chosen = none → ∀ i ∈ initialised plugins, getEnabled plugins i = false
  task : Counting (.boolean true) s.shutdowns.length s.shutdownTask
  stopped : (s.shutDown++s.shutdowns).Perm s.shutdownAsync
  called : s.shutdownCalled = true → s.shutdowns = []
  returned : s.returned = if s.shutdownCalled then [.ok s.chosen] else []

theorem initialised_nodup (plugins : List Plugin) : (initialised plugins).Nodup :=
  (List.nodup_range.filter _).filter _

theorem initialised_length (plugins : List Plugin) :
    (initialised plugins).length ≤ (started plugins).length := List.length_filter_le _ _

theorem started_length (plugins : List Plugin) : (started plugins).length ≤ plugins.length :=
  (List.length_filter_le _ _).trans_eq List.length_range

theorem start_loading (plugins : List Plugin) (hn : (started plugins).length < maxUint) :
    Loading plugins (getFirstEnabledAsync plugins) ∧
      (getFirstEnabledAsync plugins).inits = started plugins := by
  obtain ⟨task,ws,he,hc⟩ := tryLoad_all (List.range plugins.length)
    { loaderNew plugins with loadTask := attach gTaskNew 1 } 0
    (counting_attach _ 1 Nat.one_pos) (by rwa [Nat.zero_add])
  rw [Nat.zero_add] at hc
  have hs : getFirstEnabledAsync plugins =
      { loaderNew plugins with
        loadTask := returnPointer task () true
        inits := started plugins
        warnings := ws } := by
    show maybeReturn ((List.range plugins.length).foldl tryLoad
      { loaderNew plugins with loadTask := attach gTaskNew 1 }) none = _
    rw [he]
    rfl
  rw [hs]
  refine ⟨⟨rfl,⟨rfl,rfl,rfl,rfl,rfl,rfl⟩,counting_pointer hc,?_,rfl,rfl,rfl⟩,rfl⟩
  show (initialised plugins++[]).Perm (initialised plugins)
  rw [List.append_nil]

theorem initCb_loading {plugins : List Plugin} {s : Loader} (h : Loading plugins s) {i : ℕ}
    (hi : i ∈ s.inits) :
    Loading plugins (providerInitCb s i) ∧
      (providerInitCb s i).inits.length+1 = s.inits.length := by
  have hlen := List.length_erase_add_one hi
  have hu := h.untouched
  obtain rfl := h.unchanged
  obtain ⟨ws,he⟩ := providerInitCb_eq s i
  have htask : Counting (.pointer ()) (s.inits.erase i).length
      (returnPointer s.loadTask () true) := by
    apply counting_pointer
    rw [hlen]
    exact h.task
  have hperm : ((s.inits.erase i).filter (initialises s.plugins)++
      (s.providers++(if initialises s.plugins i then [i] else []))).Perm
        (s.inits.filter (initialises s.plugins)++s.providers) := by
    have hp := (List.perm_cons_erase hi).filter (initialises s.plugins)
    rw [← List.append_assoc]
    by_cases hok : initialises s.plugins i = true
    · rw [List.filter_cons_of_pos hok] at hp
      rw [if_pos hok]
      exact (List.perm_append_singleton i _).trans (hp.append_right s.providers).symm
    · rw [List.filter_cons_of_neg hok] at hp
      rw [if_neg hok,List.append_nil]
      exact (hp.append_right s.providers).symm
  rw [he]
  exact ⟨⟨rfl,⟨hu.cancelled,hu.shutdowns,hu.shutdownAsync,hu.shutDown,hu.shutdownCalled,
    hu.returned⟩,htask,hperm.trans h.providers,h.loadCalled,h.chosen,h.shutdownTask⟩,hlen⟩

theorem shutdownAll_stopping {plugins : List Plugin} {s : Loader} (hu : Untouched s)
    (hi : s.inits = []) (hl : s.loadCalled = true) {rest : List ℕ} (hlen : rest.length < maxUint)
    (hsel : (s.chosen.toList++rest).Perm (initialised plugins))
    (hen : ∀ i ∈ s.chosen, getEnabled plugins i = true)
    (hdis : s.chosen = none → ∀ i ∈ initialised plugins, getEnabled plugins i = false) :
    Stopping plugins (shutdownProvidersAsync s rest) ∧
      (shutdownProvidersAsync s rest).shutdowns = rest ∧
      (shutdownProvidersAsync s rest).shutdownCalled = false := by
  have hmod : (rest.length+1)%(maxUint+1) = rest.length+1 := Nat.mod_eq_of_lt (by omega)
  have hs : shutdownProvidersAsync s rest =
      { s with
        shutdownTask := returnBoolean (attach gTaskNew (rest.length+1)) true
        shutdowns := rest
        shutdownAsync := rest } := by
    unfold shutdownProvidersAsync
    dsimp only
    rw [shutdownOne_all,hmod,hu.shutdowns,hu.shutdownAsync,hu.cancelled]
    rfl
  have htask : Counting (.boolean true) rest.length
      (returnBoolean (attach gTaskNew (rest.length+1)) true) :=
    counting_boolean (counting_attach _ _ (Nat.succ_pos _))
  rw [hs]
  refine ⟨⟨hu.cancelled,hi,hl,hsel,hen,hdis,htask,?_,fun hc => ?_,?_⟩,rfl,hu.shutdownCalled⟩
  · show (s.shutDown++rest).Perm rest
    rw [hu.shutDown,List.nil_append]
  · exact absurd (hu.shutdownCalled.symm.trans hc) Bool.false_ne_true
  · show s.returned = if s.shutdownCalled then _ else _
    rw [hu.returned,hu.shutdownCalled]
    rfl

theorem loadTask_returned {plugins : List Plugin} {s : Loader} (h : Loading plugins s)
    {result : Except GError (TaskValue Unit)} (hr : s.loadTask.returned.head? = some result) :
    s.inits = [] ∧ result = .ok (.pointer ()) := by
  rw [counting_open h.task] at hr
  split_ifs at hr with hz
  exact ⟨List.length_eq_zero_iff.mp hz,(Option.some.inj hr).symm⟩

/-- The first enabled provider of the array is taken out of it, wherever it is, and
the others are asked to shut down. -/
theorem loadCb_stopping {plugins : List Plugin} (hn : (started plugins).length < maxUint) {s : Loader}
    (h : Loading plugins s) {result : Except GError (TaskValue Unit)}
    (hr : s.loadTask.returned.head? = some result) :
    Stopping plugins (getFirstEnabledLoadCb s result) ∧
      (getFirstEnabledLoadCb s result).shutdowns.length ≤ (initialised plugins).length ∧
      (getFirstEnabledLoadCb s result).shutdownCalled = false := by
  obtain ⟨hi,rfl⟩ := loadTask_returned h hr
  obtain rfl := h.unchanged
  have hu := h.untouched
  have hall : s.providers.Perm (initialised s.plugins) := by
    have hp := h.providers
    rwa [hi,List.filter_nil,List.nil_append] at hp
  have hcount := (initialised_length s.plugins).trans_lt hn
  have hfin : loadFinish { s with loadCalled := true } (.ok (.pointer ())) = .ok s.providers := by
    rw [loadFinish,if_neg (by simp [hu.cancelled])]
    rfl
  unfold getFirstEnabledLoadCb
  dsimp only
  rw [hfin]
  dsimp only
  cases hf : s.providers.findIdx? (getEnabled s.plugins) with
  | none =>
    have hdis : ∀ i ∈ initialised s.plugins, getEnabled s.plugins i = false := fun i hm =>
      List.findIdx?_eq_none_iff.mp hf i (hall.mem_iff.mpr hm)
    have hno : ∀ i ∈ s.chosen, getEnabled s.plugins i = true := by
      rw [h.chosen]
      exact fun i hm => by cases hm
    have hsel : (s.chosen.toList++s.providers).Perm (initialised s.plugins) := by
      rw [h.chosen]
      exact hall
    have hstop := shutdownAll_stopping (s := { s with loadCalled := true })
      ⟨hu.cancelled,hu.shutdowns,hu.shutdownAsync,hu.shutDown,hu.shutdownCalled,hu.returned⟩ hi rfl
      (hall.length_eq.trans_lt hcount) hsel hno (fun _ => hdis)
    refine ⟨hstop.1,?_,hstop.2.2⟩
    rw [hstop.2.1]
    exact hall.length_eq.le
  | some k =>
    obtain ⟨hk,hen,-⟩ := List.findIdx?_eq_some_iff_getElem.mp hf
    have hget : s.providers[k]? = some s.providers[k] := List.getElem?_eq_getElem hk
    have hrest := (removeIndexFast_perm s.providers k _ hget).trans hall
    have hlen : (gPtrArrayRemoveIndexFast s.providers k).length+1 =
        (initialised s.plugins).length := hrest.length_eq
    have hsel : (s.providers[k]?.toList++gPtrArrayRemoveIndexFast s.providers k).Perm
        (initialised s.plugins) := by
      rw [hget]
      exact hrest
    have hone : ∀ i ∈ s.providers[k]?, getEnabled s.plugins i = true := by
      rw [hget]
      intro i hm
      cases hm
      exact hen
    have hstop := shutdownAll_stopping
      (s := { s with
        loadCalled := true
        providers := gPtrArrayRemoveIndexFast s.providers k
        chosen := s.providers[k]? })
      ⟨hu.cancelled,hu.shutdowns,hu.shutdownAsync,hu.shutDown,hu.shutdownCalled,hu.returned⟩ hi rfl
      (by omega) hsel hone (fun hnone => by rw [hget] at hnone; cases hnone)
    refine ⟨hstop.1,?_,hstop.2.2⟩
    rw [hstop.2.1]
    omega

theorem shutdownCb_stopping {plugins : List Plugin} {s : Loader} (h : Stopping plugins s) {i : ℕ}
    (hi : i ∈ s.shutdowns) (success : Bool) :
    Stopping plugins (shutdownOneCb s i success) ∧
      (shutdownOneCb s i success).shutdowns.length+1 = s.shutdowns.length ∧
      (shutdownOneCb s i success).shutdownCalled = s.shutdownCalled := by
  have hlen := List.length_erase_add_one hi
  have htask : Counting (.boolean true) (s.shutdowns.erase i).length
      (returnBoolean s.shutdownTask true) := by
    apply counting_boolean
    rw [hlen]
    exact h.task
  obtain ⟨ws,hs⟩ := shutdownOneCb_eq s i success
  have hpending : s.shutdownCalled = true → s.shutdowns.erase i = [] := fun hc => by
    rw [h.called hc] at hi
    cases hi
  rw [hs]
  refine ⟨⟨h.cancelled,h.inits,h.loadCalled,h.selected,h.enabled,h.disabled,htask,?_,hpending,
    h.returned⟩,hlen,rfl⟩
  show ((s.shutDown++[i])++s.shutdowns.erase i).Perm s.shutdownAsync
  rw [List.append_assoc]
  exact ((List.perm_cons_erase hi).symm.append_left s.shutDown).trans h.stopped

theorem allShutDownCb_stopping {plugins : List Plugin} {s : Loader} (h : Stopping plugins s)
    (hc : s.shutdownCalled = false) {result : Except GError (TaskValue Unit)}
    (hr : s.shutdownTask.returned.head? = some result) :
    Stopping plugins (getFirstEnabledShutdownCb s result) ∧ s.shutdowns = [] := by
  rw [counting_open h.task] at hr
  split_ifs at hr with hz
  have hnone := List.length_eq_zero_iff.mp hz
  cases hr
  have hs : getFirstEnabledShutdownCb s (.ok (.boolean true)) =
      { s with shutdownCalled := true, returned := s.returned++[.ok s.chosen] } := by
    have hok : (s.cancelled || !(Except.ok (TaskValue.boolean true) :
        Except GError (TaskValue Unit)).isOk) = false := by
      rw [h.cancelled]
      rfl
    simp only [getFirstEnabledShutdownCb,hok]
    rfl
  rw [hs]
  refine ⟨⟨h.cancelled,h.inits,h.loadCalled,h.selected,h.enabled,h.disabled,h.task,h.stopped,
    fun _ => hnone,?_⟩,hnone⟩
  show s.returned++[.ok s.chosen] = [.ok s.chosen]
  rw [h.returned,hc]
  rfl

def remaining (plugins : List Plugin) (s : Loader) : ℕ :=
  if s.loadCalled then s.shutdowns.length+(if s.shutdownCalled then 0 else 1)
  else s.inits.length+(initialised plugins).length+2

theorem loading_remaining {plugins : List Plugin} {s : Loader} (h : Loading plugins s) :
    remaining plugins s = s.inits.length+(initialised plugins).length+2 := by
  rw [remaining,h.loadCalled]
  rfl

theorem stopping_remaining {plugins : List Plugin} {s : Loader} (h : Stopping plugins s) :
    remaining plugins s = s.shutdowns.length+(if s.shutdownCalled then 0 else 1) := by
  rw [remaining,h.loadCalled]
  rfl

theorem loading_step {plugins : List Plugin} (hn : (started plugins).length < maxUint) {s s' : Loader}
    {op : Operation} (h : Loading plugins s) (hop : op ≠ .cancel) (hs : step s op = some s') :
    (Loading plugins s' ∨ Stopping plugins s') ∧ remaining plugins s' < remaining plugins s := by
  cases op with
  | initCb i =>
    simp only [step] at hs
    split_ifs at hs with hi
    cases hs
    obtain ⟨hl,hlen⟩ := initCb_loading h hi
    refine ⟨Or.inl hl,?_⟩
    rw [loading_remaining h,loading_remaining hl]
    omega
  | loadCb =>
    simp only [step,h.loadCalled] at hs
    obtain ⟨result,hres,rfl⟩ := Option.map_eq_some_iff.mp hs
    obtain ⟨hstop,hlen,hcall⟩ := loadCb_stopping hn h hres
    refine ⟨Or.inr hstop,?_⟩
    rw [loading_remaining h,stopping_remaining hstop,hcall]
    show _+1 < _
    omega
  | shutdownCb i success =>
    simp only [step,h.untouched.shutdowns] at hs
    cases hs
  | allShutDownCb =>
    simp only [step,h.untouched.shutdownCalled,h.shutdownTask] at hs
    cases hs
  | cancel => exact absurd rfl hop

theorem stopping_step {plugins : List Plugin} {s s' : Loader} {op : Operation}
    (h : Stopping plugins s) (hop : op ≠ .cancel) (hs : step s op = some s') :
    Stopping plugins s' ∧ remaining plugins s' < remaining plugins s := by
  cases op with
  | initCb i =>
    simp only [step,h.inits] at hs
    cases hs
  | loadCb =>
    simp only [step,h.loadCalled] at hs
    cases hs
  | shutdownCb i success =>
    simp only [step] at hs
    split_ifs at hs with hi
    cases hs
    obtain ⟨hstop,hlen,hcall⟩ := shutdownCb_stopping h hi success
    refine ⟨hstop,?_⟩
    rw [stopping_remaining h,stopping_remaining hstop,hcall]
    omega
  | allShutDownCb =>
    simp only [step] at hs
    split_ifs at hs with hc
    obtain ⟨result,hres,rfl⟩ := Option.map_eq_some_iff.mp hs
    have hc' := Bool.not_eq_true _ ▸ hc
    obtain ⟨hstop,hnone⟩ := allShutDownCb_stopping h hc' hres
    refine ⟨hstop,?_⟩
    have hd : (getFirstEnabledShutdownCb s result).shutdownCalled = true := rfl
    rw [stopping_remaining h,stopping_remaining hstop,hstop.called hd,hd,hnone,hc']
    exact Nat.zero_lt_one
  | cancel => exact absurd rfl hop

theorem run_phase {plugins : List Plugin} (hn : (started plugins).length < maxUint)
    {ops : List Operation} {s t : Loader} (hops : ∀ op ∈ ops, op ≠ .cancel)
    (h : Loading plugins s ∨ Stopping plugins s) (hr : run step ops s = some t) :
    (Loading plugins t ∨ Stopping plugins t) ∧
      remaining plugins t+ops.length ≤ remaining plugins s := by
  induction ops generalizing s with
  | nil =>
    cases hr
    exact ⟨h,le_rfl⟩
  | cons op ops ih =>
    obtain ⟨m,hs,ht⟩ := run_cons.mp hr
    have hop := hops op List.mem_cons_self
    have hone : (Loading plugins m ∨ Stopping plugins m) ∧
        remaining plugins m < remaining plugins s := by
      rcases h with h | h
      · exact loading_step hn h hop hs
      · obtain ⟨hstop,hlt⟩ := stopping_step h hop hs
        exact ⟨Or.inr hstop,hlt⟩
    obtain ⟨hphase,hle⟩ := ih (fun o ho => hops o (List.mem_cons_of_mem _ ho)) hone.1 ht
    rw [List.length_cons]
    exact ⟨hphase,by omega⟩

theorem loading_progress {plugins : List Plugin} {s : Loader} (h : Loading plugins s) :
    ∃ op, op ≠ .cancel ∧ (step s op).isSome := by
  cases hi : s.inits with
  | nil =>
    refine ⟨.loadCb,nofun,?_⟩
    have ho := counting_open h.task
    rw [hi,List.length_nil,if_pos rfl] at ho
    simp [step,h.loadCalled,ho]
  | cons i is =>
    refine ⟨.initCb i,nofun,?_⟩
    simp [step,hi]

theorem stopping_progress {plugins : List Plugin} {s : Loader} (h : Stopping plugins s)
    (hc : s.shutdownCalled = false) : ∃ op, op ≠ .cancel ∧ (step s op).isSome := by
  cases hd : s.shutdowns with
  | nil =>
    refine ⟨.allShutDownCb,nofun,?_⟩
    have ho := counting_open h.task
    rw [hd,List.length_nil,if_pos rfl] at ho
    simp [step,hc,ho]
  | cons i is =>
    refine ⟨.shutdownCb i true,nofun,?_⟩
    simp [step,hd]

theorem stopped_no_step {plugins : List Plugin} {s : Loader} (h : Stopping plugins s)
    (hc : s.shutdownCalled = true) (op : Operation) (hop : op ≠ .cancel) : step s op = none := by
  cases op with
  | initCb i => simp [step,h.inits]
  | loadCb => simp [step,h.loadCalled]
  | shutdownCb i success => simp [step,h.called hc]
  | allShutDownCb => simp [step,hc]
  | cancel => exact absurd rfl hop

/-- The result is an initialised provider that is enabled, if there is one. -/
structure Selected (plugins : List Plugin) (result : Option ℕ) (s : Loader) : Prop where
  enabled : ∀ i, result = some i → i ∈ initialised plugins ∧ getEnabled plugins i = true
  found : (∃ i, result = some i) ↔ ∃ i ∈ initialised plugins, getEnabled plugins i = true
  others : ∀ i ∈ initialised plugins, result ≠ some i →
    s.shutdownAsync.count i = 1 ∧ s.shutDown.count i = 1
  kept : ∀ i, result = some i → i ∉ s.shutdownAsync

theorem stopped_selected {plugins : List Plugin} {s : Loader} (h : Stopping plugins s)
    (hc : s.shutdownCalled = true) : Selected plugins s.chosen s := by
  have hnodup : (s.chosen.toList++s.shutdownAsync).Nodup :=
    h.selected.nodup_iff.mpr (initialised_nodup plugins)
  have hmem (i : ℕ) (hi : s.chosen = some i) : i ∈ initialised plugins :=
    h.selected.mem_iff.mp (List.mem_append_left _ (by simp [hi]))
  have hstopped : s.shutDown.Perm s.shutdownAsync := by
    have hp := h.stopped
    rwa [h.called hc,List.append_nil] at hp
  constructor
  · exact fun i hi => ⟨hmem i hi,h.enabled i hi⟩
  · constructor
    · rintro ⟨i,hi⟩
      exact ⟨i,hmem i hi,h.enabled i hi⟩
    · rintro ⟨i,hi,he⟩
      cases hch : s.chosen with
      | none =>
        rw [h.disabled hch i hi] at he
        cases he
      | some j => exact ⟨j,rfl⟩
  · intro i hi hne
    have hin : i ∈ s.shutdownAsync := by
      rcases List.mem_append.mp (h.selected.mem_iff.mpr hi) with hm | hm
      · exact absurd (Option.mem_toList.mp hm) hne
      · exact hm
    have hone : s.shutdownAsync.count i = 1 :=
      List.count_eq_one_of_mem hnodup.of_append_right hin
    exact ⟨hone,(hstopped.count_eq i).trans hone⟩
  · intro i hi hm
    rw [hi] at hnodup
    exact (List.nodup_cons.mp hnodup).1 hm

/-- Whatever the plugins do and in whatever order their initialisations and
shutdowns complete, at most so many callbacks are called; until the result is
returned there is one to be called, and after it none. The result is an
initialised and enabled provider whenever there is one; it is not shut down, and
each other one has been by then, once. No more initialisations are started than
the task can count. -/
theorem first_enabled_selected (plugins : List Plugin) (hn : (started plugins).length < maxUint)
    (ops : List Operation) (hops : ∀ op ∈ ops, op ≠ .cancel) (t : Loader)
    (hr : run step ops (getFirstEnabledAsync plugins) = some t) :
    ops.length ≤ 2*plugins.length+2 ∧
      (t.returned = [] ∧ (∃ op, op ≠ .cancel ∧ (step t op).isSome) ∨
        ∃ result, t.returned = [.ok result] ∧ Selected plugins result t ∧
          ∀ op, op ≠ .cancel → step t op = none) := by
  obtain ⟨hstart,hinits⟩ := start_loading plugins hn
  obtain ⟨hphase,hle⟩ := run_phase hn hops (Or.inl hstart) hr
  constructor
  · have hlen := initialised_length plugins
    have hall := started_length plugins
    rw [loading_remaining hstart,hinits] at hle
    omega
  · rcases hphase with h | h
    · exact Or.inl ⟨h.untouched.returned,loading_progress h⟩
    · cases hc : t.shutdownCalled with
      | false =>
        have hret := h.returned
        rw [hc] at hret
        exact Or.inl ⟨hret,stopping_progress h hc⟩
      | true =>
        have hret := h.returned
        rw [hc] at hret
        exact Or.inr ⟨t.chosen,hret,stopped_selected h hc,stopped_no_step h hc⟩

def fivePlugins : List Plugin :=
  [⟨false, true, true, true, true, true⟩, ⟨true, true, true, true, false, true⟩,
    ⟨true, true, true, true, true, false⟩, ⟨true, true, true, true, true, true⟩,
    ⟨true, true, true, true, true, true⟩]

def fiveCallbacks : List Operation :=
  [.initCb 3, .initCb 1, .initCb 4, .initCb 2, .loadCb, .shutdownCb 2 false, .shutdownCb 4 true,
    .allShutDownCb]

theorem first_enabled_selected_example :
    ∃ t, run step fiveCallbacks (getFirstEnabledAsync fivePlugins) = some t ∧
      t.returned = [.ok (some 3)] ∧ Selected fivePlugins (some 3) t := by
  obtain ⟨t,ht⟩ := Option.isSome_iff_exists.mp
    (show (run step fiveCallbacks (getFirstEnabledAsync fivePlugins)).isSome by decide)
  have hret : t.returned = [.ok (some 3)] := by
    have hd : (run step fiveCallbacks (getFirstEnabledAsync fivePlugins)).map Loader.returned =
        some [.ok (some 3)] := by decide
    rw [ht] at hd
    exact Option.some.inj hd
  have hsel := (first_enabled_selected fivePlugins (by decide) fiveCallbacks (by decide) t ht).2
  rw [hret] at hsel
  rcases hsel with ⟨hno,-⟩ | ⟨result,hr,hs,-⟩
  · cases hno
  · cases hr
    exact ⟨t,ht,hret,hs⟩

end EosPayg.ProviderSelection
