import EosPayg.InitProgress
import EosPayg.Lifecycle

/-!
# The calls of shutdown and the callbacks to come

Every call of shutdown leaves a request, which remembers how many saves had been
started, and no save that was started is forgotten. What is in flight comes to an end:
every step of a file operation and every callback takes from a fixed amount of work.
-/

set_option autoImplicit false

namespace EosPayg.ShutdownRequests
open EosPayg.PaygCodes EosPayg.ManagerState EosPayg.ManagerCode EosPayg.ManagerFiles
  EosPayg.SaveQueue EosPayg.SaveProgress EosPayg.GuardedRun EosPayg.RecordList EosPayg.Lifecycle
open EosPayg.InitTask (fileLoadDeleteCb_cases)
open EosPayg.InitProgress (work step_work performAll_work reportEffects_works)
open EosPayg.Shutdown (shutdownAsync internalSaveStateCb)

def startedAs (sv : Save) : SavedState × EpgClock × Bool := (sv.saved, sv.clock, sv.forShutdown)

/-- The calls of shutdown that are added, each by the saves started before it. -/
structure Recorded (s s' : System) (calls : List ℕ) : Prop where
  requests : s'.requests.map Request.earlier = s.requests.map Request.earlier++calls
  saves : s.core.saves.map startedAs <+: s'.core.saves.map startedAs

theorem deliver_earlier (requests : List Request) (answer : Option Answer) :
    (deliver requests answer).map Request.earlier = requests.map Request.earlier := by
  cases requests <;> cases answer <;> rfl

theorem deleteCb_same (s : Initialisation.System) (i : ℕ) (d : Initialisation.Deletion)
    (error : Option GIOError) :
    (Initialisation.deleteCb s i d error).manager = s.manager ∧
      (Initialisation.deleteCb s i d error).saves = s.saves := by
  unfold Initialisation.deleteCb Initialisation.acted Initialisation.deleteActs Initialisation.performAll
  dsimp only
  rcases fileLoadDeleteCb_cases s.taskData error with hx | ⟨x,hx⟩ <;> rw [hx] <;> exact ⟨rfl,rfl⟩

theorem saveCb_same (s : Initialisation.System) (i : ℕ) (sv : Save)
    (result : Except GIOError Unit) :
    (Initialisation.saveCb s i sv result).manager = (internalSaveStateCb s.manager result).1 ∧
      (Initialisation.saveCb s i sv result).saves = s.saves.set i { sv with reported := true } := by
  have hreport (forTask : Bool) (t : Initialisation.System) :
      (Initialisation.performAll t (Initialisation.reportEffects forTask result)).manager =
          t.manager ∧
        (Initialisation.performAll t (Initialisation.reportEffects forTask result)).saves =
          t.saves := by
    cases forTask with
    | false => exact ⟨rfl,rfl⟩
    | true => cases result <;> exact ⟨rfl,rfl⟩
  exact hreport sv.forTask _

theorem set_started {saves : List Save} {i : ℕ} {sv sv' : Save} (hi : saves[i]? = some sv)
    (h : startedAs sv' = startedAs sv) :
    saves.map startedAs <+: (saves.set i sv').map startedAs :=
  (map_kept saves i sv sv' startedAs hi h).symm ▸ List.prefix_refl _

theorem core_started {s s' : Initialisation.System} {op : Initialisation.Operation}
    (hs : Initialisation.step s op = some s') :
    s.saves.map startedAs <+: s'.saves.map startedAs := by
  cases Initialisation.step_cases s s' op hs with
  | timePasses clock => exact List.prefix_refl _
  | read i l hi hf => exact List.prefix_refl _
  | readFails i error l hi hf he => exact List.prefix_refl _
  | loadCb i l result hi hl =>
    unfold Initialisation.loadCb Initialisation.acted Initialisation.loadActs
    dsimp only
    rw [(performAll_saves _ _).1,List.map_append]
    exact List.prefix_append _ _
  | delete i d hi hf => exact List.prefix_refl _
  | deleteFails i error d hi hf => exact List.prefix_refl _
  | deleteCb i d error hi hd =>
    rw [(deleteCb_same s i d error).2]
  | takeEffect i f sv sv' files' hi he =>
    obtain ⟨-,-,rfl⟩ := takeEffect_some sv sv' f s.files files' he
    exact set_started hi rfl
  | fail i f error sv sv' hi he =>
    obtain ⟨-,-,rfl⟩ := fail_some sv sv' f error he
    exact set_started hi rfl
  | opCb i f sv sv' hi he =>
    obtain ⟨error,-,rfl⟩ := opCb_some sv sv' f he
    exact set_started hi rfl
  | saveCb i sv result hi hresult hr =>
    rw [(saveCb_same s i sv result).2]
    exact set_started hi rfl

theorem serve_recorded (s : System) (out : Outcome) : Recorded s (serve s out) [] := by
  refine ⟨(List.append_nil _).symm,?_⟩
  show _ <+: ((Initialisation.performAll _ _).saves).map startedAs
  rw [(performAll_saves _ _).1,List.map_append]
  exact List.prefix_append _ _

theorem startShutdown_recorded (s : System) :
    Recorded s (startShutdown s) [s.core.saves.length] := by
  cases hout : (shutdownAsync s.core.manager).2 with
  | refused error =>
    simp only [startShutdown,hout]
    exact ⟨List.map_append,List.prefix_refl _⟩
  | waits =>
    simp only [startShutdown,hout]
    exact ⟨List.map_append,List.prefix_refl _⟩
  | saves =>
    simp only [startShutdown,hout]
    refine ⟨List.map_append,?_⟩
    rw [List.map_append]
    exact List.prefix_append _ _

theorem report_recorded {s : System} {i : ℕ} {sv : Save} (hi : s.core.saves[i]? = some sv)
    (result : Except GIOError Unit) : Recorded s (report s i sv result) [] := by
  unfold report
  split_ifs
  · refine ⟨?_,set_started hi rfl⟩
    rw [deliver_earlier,List.append_nil]
  · refine ⟨?_,?_⟩
    · rw [deliver_earlier,List.append_nil]
    · dsimp only
      rw [(saveCb_same s.core i sv result).2]
      exact set_started hi rfl

theorem step_recorded {hmac : Hmac} {s s' : System} {op : Operation}
    (hs : step hmac s op = some s') :
    Recorded s s' (if op = .shutdown then [s.core.saves.length] else []) := by
  cases op with
  | addCode codeStr =>
    cases hs
    exact serve_recorded s _
  | clearCode =>
    cases hs
    exact serve_recorded s _
  | wallclockTimeChanged delta =>
    cases hs
    exact serve_recorded s _
  | checkExpired =>
    cases hs
    exact serve_recorded s _
  | shutdown =>
    cases hs
    exact startShutdown_recorded s
  | core op =>
    rcases core_cases hs with ⟨i,sv,result,-,hi,-,-,rfl⟩ | ⟨-,core,hcore,rfl⟩
    · exact report_recorded hi result
    · exact ⟨(List.append_nil _).symm,core_started hcore⟩

/-- A run records its calls of shutdown, one request for each. -/
theorem run_requests {hmac : Hmac} {ops : List Operation} {s t : System}
    (hr : run (step hmac) ops s = some t) :
    t.requests.length = s.requests.length+ops.count .shutdown := by
  induction ops generalizing s with
  | nil =>
    cases hr
    rfl
  | cons op ops ih =>
    obtain ⟨s',hs,ht⟩ := run_cons.mp hr
    have hone := congrArg List.length (step_recorded hs).requests
    rw [List.length_append,List.length_map,List.length_map] at hone
    rw [ih ht,List.count_cons,hone]
    by_cases hop : op = .shutdown
    · simp only [hop,if_true,List.length_singleton,beq_self_eq_true]
      omega
    · simp only [hop,if_false,List.length_nil,beq_iff_eq]
      omega

theorem run_recorded {hmac : Hmac} {ops : List Operation} {s t : System}
    (hr : run (step hmac) ops s = some t) :
    s.requests.map Request.earlier <+: t.requests.map Request.earlier ∧
      s.core.saves.map startedAs <+: t.core.saves.map startedAs := by
  refine run_invariant (I := fun u => s.requests.map Request.earlier <+:
      u.requests.map Request.earlier ∧ s.core.saves.map startedAs <+: u.core.saves.map startedAs)
    (fun u op u' hu hs => ?_) ⟨List.prefix_refl _,List.prefix_refl _⟩ hr
  have h := step_recorded hs
  exact ⟨hu.1.trans (h.requests ▸ List.prefix_append _ _),hu.2.trans h.saves⟩

theorem call_recorded {hmac : Hmac} {before after : List Operation} {s t : System}
    (hr : run (step hmac) (before++.shutdown::after) s = some t) (hempty : s.requests = []) :
    ∃ m, run (step hmac) before s = some m ∧
      t.requests[before.count .shutdown]?.map Request.earlier = some m.core.saves.length ∧
      m.core.saves.map startedAs <+: t.core.saves.map startedAs := by
  obtain ⟨m,hm,hrest⟩ := run_append_some.mp hr
  obtain ⟨m',hcall,ht⟩ := run_cons.mp hrest
  have hcount := run_requests hm
  have hone := (step_recorded hcall).requests
  obtain ⟨⟨later,hlater⟩,-⟩ := run_recorded ht
  rw [hempty,List.length_nil,Nat.zero_add] at hcount
  refine ⟨m,hm,?_,(run_recorded hrest).2⟩
  rw [← List.getElem?_map,← hlater,hone,if_pos rfl,← hcount,
    List.getElem?_append_left (by simp),List.getElem?_append_right (by simp)]
  simp

def Callback : Operation → Bool
  | .core op => InitProgress.Operation.acts op
  | _ => false

theorem report_work (s : System) (i : ℕ) (sv : Save) (result : Except GIOError Unit) :
    work (report s i sv result).core = work (Initialisation.saveCb s.core i sv result) := by
  unfold report
  split_ifs
  · show _ = work (Initialisation.performAll _ (Initialisation.reportEffects sv.forTask result))
    rw [performAll_work,reportEffects_works]
    rfl
  · rfl

theorem callback_work {hmac : Hmac} {s s' : System} {op : Operation} (hc : Callback op = true)
    (hs : step hmac s op = some s') : work s'.core < work s.core := by
  cases op with
  | core op =>
    have hacts : InitProgress.Operation.acts op = true := hc
    rcases core_cases hs with ⟨i,sv,result,rfl,hi,hresult,hr,rfl⟩ | ⟨-,core,hcore,rfl⟩
    · have hsame : Initialisation.step s.core (.saveCb i) =
          some (Initialisation.saveCb s.core i sv result) := by
        simp [Initialisation.step,hi,hresult,hr]
      have hless := step_work hsame
      rw [hacts,← report_work] at hless
      exact hless
    · have hless := step_work hcore
      rw [hacts] at hless
      exact hless
  | _ => cases hc

end EosPayg.ShutdownRequests
