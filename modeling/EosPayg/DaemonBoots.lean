import EosPayg.DaemonEfi
import EosPayg.RootPivot

/-!
# The variables over a sequence of boots

Each boot runs a daemon of any kind on the variables the last one left. All it ever
does to them is to raise the level it finds and to take away the mark of an active
machine, which no boot puts back.
-/

set_option autoImplicit false

namespace EosPayg.DaemonBoots
open EosPayg.DaemonMain EosPayg.DaemonEnd EosPayg.DaemonEfi EosPayg.DebugFlags
open EosPayg.GuardedRun
open EosPayg.SecurityLevel (securitylevelName testAndUpdateSecuritylevel varReadFullname_ok
  efivarfsRead_ok)
open EosPayg.EfiVariables hiding Answers
open EosPayg.ServiceStartup (Deployment)

/-- What a daemon meets and what happens to it until it is gone, or the machine is. -/
structure Boot where
  answers : Answers
  deployment : Deployment
  events : List Event

def boot (s : EfiVarFs) (b : Boot) : Option EfiVarFs :=
  (run (step b.answers b.deployment) b.events (main b.answers b.deployment s)).map
    (fun d => d.efi.store)

/-- The mark of an active machine may be gone, and the level may be another. -/
structure Shrinks (s t : EfiVarFs) : Prop where
  other : ∀ name, name ≠ activeName → name ≠ securitylevelName →
    t.files.lookup name = s.files.lookup name
  active : t.files.lookup activeName = s.files.lookup activeName ∨
    t.files.lookup activeName = none
  level : securitylevelName ∈ t.files ↔ securitylevelName ∈ s.files

theorem Shrinks.refl (s : EfiVarFs) : Shrinks s s := ⟨fun _ _ _ => rfl,Or.inl rfl,Iff.rfl⟩

theorem Shrinks.trans {s t u : EfiVarFs} (h : Shrinks s t) (h' : Shrinks t u) : Shrinks s u := by
  refine ⟨fun name ha hl => (h'.other name ha hl).trans (h.other name ha hl),?_,
    h'.level.trans h.level⟩
  rcases h'.active with he | hn
  · rw [he]
    exact h.active
  · exact Or.inr hn

theorem deleteActive_shrinks (e : Efi EfiVarFs) (k : EfiVariables.Answers) :
    Shrinks e.store (varDelete efivarfsOps e (cString "active") k).1.store := by
  have hp : HasPrefix activeName := RootPivot.eospaygEfiName_hasPrefix _
  have he : (varDelete efivarfsOps e (cString "active") k).1.store =
      (efivarfsDelete e.store activeName k).1 := by
    show (varDeleteFullname efivarfsOps e activeName k).1.store = _
    unfold varDeleteFullname
    rw [if_neg (not_not.mpr hp)]
    rfl
  rw [he]
  unfold efivarfsDelete
  cases k.unlinkat with
  | some errno => exact Shrinks.refl e.store
  | none =>
    dsimp only
    split_ifs
    · refine ⟨fun name ha _ => AList.lookup_erase_ne ha,Or.inr (AList.lookup_erase _ _),?_⟩
      rw [AList.mem_erase]
      exact and_iff_right activeName_ne.symm
    · exact Shrinks.refl e.store

theorem efivarfsWrite_mem {s : EfiVarFs} {name : Name} (hm : name ∈ s.files) (content : Bytes)
    (allowOverwrite : Bool) (k : EfiVariables.Answers) :
    name ∈ (efivarfsWrite s name content allowOverwrite k).1.files := by
  unfold efivarfsWrite
  dsimp only
  split
  · exact hm
  · rename_i t ht
    split
    · unfold openCreate at ht
      cases hk : k.openat with
      | some errno => simp [hk] at ht
      | none =>
        simp only [hk,if_pos hm] at ht
        split_ifs at ht
        cases ht
        exact hm
    · exact (AList.mem_insert _).mpr (Or.inl rfl)

theorem testAndUpdate_shrinks (level : UInt8) (e : Efi EfiVarFs)
    (kread koverwrite : EfiVariables.Answers) :
    Shrinks e.store (testAndUpdateSecuritylevel efivarfsOps level e kread koverwrite).1.store := by
  obtain ⟨-,hf⟩ := testAndUpdate_frame level e kread koverwrite
  refine ⟨fun name _ hl => hf name hl,Or.inl (hf activeName activeName_ne),?_⟩
  unfold testAndUpdateSecuritylevel
  split
  · exact Iff.rfl
  · rename_i data hdata
    have hread := varReadFullname_ok efivarfsOps e securitylevelName 1 kread data hdata
    obtain ⟨file,hfile,-⟩ := efivarfsRead_ok e.store securitylevelName kread data hread
    have hm : securitylevelName ∈ e.store.files := by
      rw [← AList.lookup_isSome,hfile]
      rfl
    dsimp only
    split_ifs
    · exact Iff.rfl
    · unfold varOverwrite
      dsimp only
      split_ifs
      · exact Iff.rfl
      · exact iff_of_true (efivarfsWrite_mem hm _ true koverwrite) hm
    · exact Iff.rfl

theorem main_shrinks (k : Answers) (dep : Deployment) (store : EfiVarFs) :
    Shrinks store (main k dep store).efi.store := by
  unfold main
  split
  · exact Shrinks.refl store
  · rename_i o ho
    dsimp only
    split_ifs
    · exact Shrinks.refl store
    · show Shrinks store (initramfs k o (started store)).efi.store
      unfold initramfs
      have hinit : (checkEnforcing k o (efiInit k.efiInit (started store))).efi.store = store :=
        (efiInit_carries k.efiInit (started store)).store
      generalize checkEnforcing k o (efiInit k.efiInit (started store)) = d at hinit ⊢
      obtain ⟨sources,nextId,hrtc⟩ := addTimeouts_eq (checkSecuritylevel k d)
        (HardwareClock.setupRtcUpdater HardwareClock.bootNew
          (checkSecuritylevel k d).enforcingMode k.hwclock).timeouts
      dsimp only
      rw [hrtc,← hinit]
      show Shrinks d.efi.store (checkSecuritylevel k d).efi.store
      unfold checkSecuritylevel
      dsimp only
      split_ifs
      · exact testAndUpdate_shrinks _ d.efi _ _
      · exact testAndUpdate_shrinks _ d.efi _ _
      · exact Shrinks.refl d.efi.store
    · exact Shrinks.refl store

theorem step_shrinks {k : Answers} {dep : Deployment} {d d' : Daemon} {event : Event}
    (hs : step k dep d event = some d') : Shrinks d.efi.store d'.efi.store := by
  obtain ⟨sv,efi,hc,-,hefi⟩ := step_carries hs
  rw [hc.store]
  rcases hefi with rfl | ⟨a,rfl⟩
  · exact Shrinks.refl d.efi.store
  · exact deleteActive_shrinks d.efi a

theorem boot_shrinks {s t : EfiVarFs} {b : Boot} (hb : boot s b = some t) : Shrinks s t := by
  obtain ⟨d,hr,rfl⟩ := Option.map_eq_some_iff.mp hb
  exact run_invariant (I := fun d => Shrinks s d.efi.store)
    (fun _ _ _ h hs => h.trans (step_shrinks hs)) (main_shrinks b.answers b.deployment s) hr

/-- However the boots of a machine run, and in whichever of them a daemon is cut short,
no variable is added by them or changed but the security level; of the others only the
mark of an active machine may go, and once gone it does not come back. -/
theorem boots_only_shrink (boots : List Boot) (s t : EfiVarFs)
    (hr : run boot boots s = some t) : Shrinks s t :=
  run_invariant (I := Shrinks s) (fun _ _ _ h hb => h.trans (boot_shrinks hb)) (Shrinks.refl s) hr

def paidOff : Boot := ⟨grantedAnswers, onePlugin, serviceStarted++[.unlocked granted]⟩

def onceMore : Boot := ⟨grantedAnswers, onePlugin, []⟩

theorem boots_only_shrink_example :
    ∃ t, run boot [paidOff, onceMore] activeStore = some t ∧ Shrinks activeStore t := by
  obtain ⟨t,ht⟩ := Option.isSome_iff_exists.mp
    (show (run boot [paidOff, onceMore] activeStore).isSome by decide +kernel)
  exact ⟨t,ht,boots_only_shrink [paidOff, onceMore] activeStore t ht⟩

structure Deactivated (s : EfiVarFs) : Prop where
  active : s.files.lookup activeName = none
  debug : ∀ file, s.files.lookup debugName = some file →
    hasFlag (file.getD 4 0) epgDebugEospaygActiveOn = false

theorem Shrinks.deactivated {s t : EfiVarFs} (h : Shrinks s t) (hd : Deactivated s) :
    Deactivated t := by
  have hne : debugName ≠ activeName := by decide
  refine ⟨?_,?_⟩
  · rcases h.active with he | hn
    · exact he.trans hd.active
    · exact hn
  · rw [h.other debugName hne debugName_ne]
    exact hd.debug

theorem readEospaygDebug_cases (e : Efi EfiVarFs) (k : FlagAnswers) :
    readEospaygDebug efivarfsOps e k = 0 ∨
      ∃ file, e.store.files.lookup debugName = some file ∧
        readEospaygDebug efivarfsOps e k = file.getD 4 0 := by
  unfold readEospaygDebug
  split_ifs
  · split
    · exact Or.inl rfl
    · rename_i content hcontent
      have hread := varReadFullname_ok efivarfsOps e debugName (-1) k.debugRead content hcontent
      obtain ⟨file,hfile,-,rfl⟩ := efivarfsRead_ok e.store debugName k.debugRead content hread
      refine Or.inr ⟨file,hfile,?_⟩
      rw [copyFlags_eq,List.headD_eq_head?_getD,List.head?_drop,List.getD_eq_getElem?_getD]
  · exact Or.inl rfl

theorem deactivated_activeSet {e : Efi EfiVarFs} (h : Deactivated e.store) (k : FlagAnswers)
    (active : EfiVariables.Answers) : paygGetEospaygActiveSet efivarfsOps e k active = false := by
  have hon : hasFlag (readEospaygDebug efivarfsOps e k) epgDebugEospaygActiveOn = false := by
    rcases readEospaygDebug_cases e k with hz | ⟨file,hfile,hf⟩
    · rw [hz]
      decide
    · rw [hf]
      exact h.debug file hfile
  have hexists : varExists efivarfsOps e (cString "active") active = false := by
    have hm : activeName ∉ e.store.files := by
      rw [← AList.lookup_eq_none,h.active]
    show (active.faccessat.isNone && decide (activeName ∈ e.store.files)) = false
    rw [decide_eq_false hm,Bool.and_false]
  unfold paygGetEospaygActiveSet
  dsimp only
  rw [hon,hexists,if_neg Bool.false_ne_true]
  split_ifs <;> rfl

theorem main_deactivated {k : Answers} {dep : Deployment} {store : EfiVarFs} {o : Options}
    (h : Deactivated store) (ho : k.options = some o) (hp : o.printLevel = false)
    (hi : k.initrdRelease = true) : (main k dep store).enforcingMode = false := by
  have hm : (main k dep store).enforcingMode = (initramfs k o (started store)).enforcingMode := by
    simp only [main,ho,hp,hi,Bool.false_eq_true,if_false,if_true]
    rfl
  rw [hm]
  unfold initramfs
  have hstore := (efiInit_carries k.efiInit (started store)).store
  generalize efiInit k.efiInit (started store) = d at hstore ⊢
  obtain ⟨henf,-⟩ := checkSecuritylevel_agree k (checkEnforcing k o d)
  obtain ⟨sources,nextId,hrtc⟩ := addTimeouts_eq (checkSecuritylevel k (checkEnforcing k o d))
    (HardwareClock.setupRtcUpdater HardwareClock.bootNew
      (checkSecuritylevel k (checkEnforcing k o d)).enforcingMode k.hwclock).timeouts
  dsimp only
  rw [hrtc]
  refine henf.trans ?_
  have hd : Deactivated d.efi.store := by
    rw [hstore]
    exact h
  show (_ && paygGetEospaygActiveSet efivarfsOps d.efi _ _) = false
  rw [deactivated_activeSet hd,Bool.and_false]

def Justified (d : Daemon) : Prop := d.phase = .running → d.enforcingMode = true

theorem serviceRun_justified (d : Daemon) : Justified (serviceRun d) := by
  intro hp
  rw [(serviceRun_carries d).enforcingMode]
  by_contra he
  have hf : serviceRun d = finish d none := if_neg he
  rw [hf] at hp
  exact (finish_phase d none).2.2 hp

theorem step_justified {k : Answers} {dep : Deployment} {d d' : Daemon} {event : Event}
    (h : Justified d) (hs : step k dep d event = some d') : Justified d' := by
  cases event with
  | pass secs =>
    simp only [step] at hs
    split_ifs at hs
    cases hs
    exact h
  | dispatch s =>
    simp only [step] at hs
    split_ifs at hs
    cases hs
    intro hp
    rw [(dispatch_carries d s).enforcingMode]
    refine h ?_
    unfold afterDispatch at hp
    split_ifs at hp
    · exact absurd hp (leave_phase _).2.2
    · exact (dispatch_keeps d s).1.symm.trans hp
  | service op =>
    simp only [step] at hs
    split_ifs at hs
    obtain ⟨sv,-,rfl⟩ := Option.map_eq_some_iff.mp hs
    exact h
  | secureInitReturns =>
    simp only [step] at hs
    split_ifs at hs
    obtain ⟨sv,-,rfl⟩ := Option.map_eq_some_iff.mp hs
    unfold afterSecureInit protect notifyReady
    split_ifs
    · exact serviceRun_justified _
    all_goals
      intro hp
      cases hp
  | busConnected =>
    simp only [step] at hs
    split_ifs at hs
    cases hs
    exact serviceRun_justified _
  | unlocked answers =>
    simp only [step] at hs
    split_ifs at hs
    cases hs
    unfold providerUnlockedCb
    split_ifs <;> exact h
  | runReturns error =>
    simp only [step] at hs
    split_ifs at hs
    cases hs
    exact fun hp => absurd hp (finish_phase d error).2.2

theorem main_justified (k : Answers) (dep : Deployment) (store : EfiVarFs) {o : Options}
    (ho : k.options = some o) (hp : o.printLevel = false) : Justified (main k dep store) :=
  fun hr => absurd ((main_early k dep store ho hp).phase.symm.trans hr) nofun

/-- Once a machine has lost the mark, and no flag stands for it, no later boot through
the initramfs enforces anything or runs the service, whatever happened in between. -/
theorem deactivated_for_good (boots : List Boot) (s t : EfiVarFs) (hd : Deactivated s)
    (hr : run boot boots s = some t) (b : Boot) (o : Options) (ho : b.answers.options = some o)
    (hp : o.printLevel = false) (hi : b.answers.initrdRelease = true) (d : Daemon)
    (hb : run (step b.answers b.deployment) b.events (main b.answers b.deployment t) = some d) :
    d.enforcingMode = false ∧ d.phase ≠ .running := by
  have ht : Deactivated t :=
    run_invariant (fun _ _ _ h hs => (boot_shrinks hs).deactivated h) hd hr
  have hinv : d.enforcingMode = false ∧ Justified d := by
    refine run_invariant (I := fun d => d.enforcingMode = false ∧ Justified d) ?_
      ⟨main_deactivated ht ho hp hi,main_justified b.answers b.deployment t ho hp⟩ hb
    rintro u event u' ⟨he,hj⟩ hs
    obtain ⟨sv,efi,hc,-⟩ := step_carries hs
    exact ⟨hc.enforcingMode.trans he,step_justified hj hs⟩
  refine ⟨hinv.1,fun hrun => ?_⟩
  have he := hinv.2 hrun
  rw [hinv.1] at he
  cases he

theorem deactivated_for_good_example :
    ∃ s t, run boot [paidOff] activeStore = some s ∧ run boot [onceMore] s = some t ∧
      (main grantedAnswers onePlugin t).enforcingMode = false := by
  obtain ⟨t,ht⟩ := Option.isSome_iff_exists.mp
    (show (run boot ([paidOff]++[onceMore]) activeStore).isSome by decide +kernel)
  obtain ⟨s,hs,hst⟩ := run_append_some.mp ht
  have hd : (run boot [paidOff] activeStore).map (fun s =>
      (s.files.lookup activeName, s.files.lookup debugName)) = some (none, none) := by
    decide +kernel
  rw [hs] at hd
  obtain ⟨hactive,hdebug⟩ := Prod.ext_iff.mp (Option.some.inj hd)
  have hgone : Deactivated s := by
    refine ⟨hactive,fun file hf => ?_⟩
    cases hdebug.symm.trans hf
  exact ⟨s,t,hs,hst,(deactivated_for_good [onceMore] s t hgone hst onceMore ⟨false, true⟩ rfl rfl rfl
    (main grantedAnswers onePlugin t) rfl).1⟩

end EosPayg.DaemonBoots
