import EosPayg.Lifecycle
import EosPayg.RecordList

/-!
# Shutting down a manager that is loaded

The system of a manager and its saves leaves out what a manager is loaded with. Each of
its steps is one of the whole manager: with the same saves in the other order, and with
the answer the task of the first call of shutdown was returned with last.
-/

set_option autoImplicit false

namespace EosPayg.ShutdownRefinement
open EosPayg.PaygCodes EosPayg.ManagerState EosPayg.ManagerCode EosPayg.ManagerFiles
  EosPayg.SaveQueue EosPayg.Shutdown EosPayg.GuardedRun EosPayg.RecordList
open EosPayg.Initialisation (performAll performAll_extends)
open EosPayg.Lifecycle (Request Answer deliver performAll_saves)

def whole (s : System) : Operation → Lifecycle.Operation
  | .addCode codeStr => .addCode codeStr
  | .clearCode => .clearCode
  | .wallclockTimeChanged delta => .wallclockTimeChanged delta
  | .timePasses clock => .core (.timePasses clock)
  | .shutdown => .shutdown
  | .takeEffect i f => .core (.takeEffect (s.saves.length-1-i) f)
  | .fail i f error => .core (.fail (s.saves.length-1-i) f error)
  | .opCb i f => .core (.opCb (s.saves.length-1-i) f)
  | .saveCb i => .core (.saveCb (s.saves.length-1-i))

inductive Answered (s : System) : List Request → Prop where
  | live (shutdown : s.shutdown = none) (waits : s.manager.pendingShutdown = none)
    (saves : ∀ sv ∈ s.saves, sv.forShutdown = false) : Answered s []
  | called (r : Request) (cancelled : s.manager.cancelled = true)
    (last : r.answers.getLast? = s.shutdown.map Answer.saved) : Answered s [r]

structure Refines (s : System) (t : Lifecycle.System) : Prop where
  manager : t.core.manager = s.manager
  clock : t.core.clock = s.clock
  files : t.core.files = s.files
  saves : t.core.saves = s.saves.reverse
  own : ∀ sv ∈ s.saves, sv.forTask = false
  answered : Answered s t.requests

variable {hmac : Hmac} {s s' : System} {t : Lifecycle.System}

theorem answered_kept {requests : List Request} (h : Answered s requests)
    (hs : s'.shutdown = s.shutdown)
    (hp : s'.manager.pendingShutdown = s.manager.pendingShutdown)
    (hc : s'.manager.cancelled = s.manager.cancelled)
    (hsaves : (∀ sv ∈ s.saves, sv.forShutdown = false) →
      ∀ sv ∈ s'.saves, sv.forShutdown = false) : Answered s' requests := by
  cases h with
  | live shutdown waits saves => exact .live (hs.trans shutdown) (hp.trans waits) (hsaves saves)
  | called r cancelled last => exact .called r (hc.trans cancelled) (by rw [hs]; exact last)

theorem serves_own {clock : EpgClock} {m : EpgManager} {out : Outcome} (h : Serves clock m out)
    (sv : Save) (hsv : sv ∈ savesStarted clock out.2) :
    sv.forTask = false ∧ sv.forShutdown = false := by
  rcases h.saves with ⟨hnone,-⟩ | ⟨hone,-⟩
  · rw [hnone] at hsv
    cases hsv
  · rw [hone,List.mem_singleton] at hsv
    rw [hsv]
    exact ⟨rfl,rfl⟩

theorem serve_refines (h : Refines s t) {out : Outcome} (hout : Serves s.clock s.manager out) :
    Refines (serve s out) (Lifecycle.serve t out) := by
  have hperform := performAll_extends out.2 { t.core with manager := out.1 }
  obtain ⟨hsaves,hclock⟩ := performAll_saves out.2 { t.core with manager := out.1 }
  refine ⟨hperform.manager,hclock.trans h.clock,hperform.files.trans h.files,?_,?_,?_⟩
  · show (performAll _ out.2).saves = (savesStarted s.clock out.2++s.saves).reverse
    rw [hsaves,List.reverse_append]
    show t.core.saves++(savesStarted t.core.clock out.2).reverse = _
    rw [h.saves,h.clock]
  · exact List.forall_mem_append.mpr ⟨fun sv hsv => (serves_own hout sv hsv).1,h.own⟩
  · exact answered_kept h.answered rfl hout.pendingShutdown hout.cancelled fun hsaves =>
      List.forall_mem_append.mpr ⟨fun sv hsv => (serves_own hout sv hsv).2,hsaves⟩

theorem set_refines (h : Refines s t) {i : ℕ} {sv sv' : Save} {files' : Directory}
    (hi : s.saves[i]? = some sv) (htask : sv'.forTask = sv.forTask)
    (hshutdown : sv'.forShutdown = sv.forShutdown) :
    Refines { s with saves := s.saves.set i sv', files := files' }
      { t with core := { t.core with
        saves := t.core.saves.set (s.saves.length-1-i) sv', files := files' } } := by
  have hmem := List.mem_of_getElem? hi
  refine ⟨h.manager,h.clock,rfl,?_,?_,?_⟩
  · show t.core.saves.set _ sv' = (s.saves.set i sv').reverse
    rw [h.saves,reverse_set s.saves i sv' (List.getElem?_eq_some_iff.mp hi).1]
  · exact forall_set s.saves i sv' h.own (htask.trans (h.own sv hmem))
  · exact answered_kept h.answered rfl rfl rfl fun hsaves =>
      forall_set s.saves i sv' hsaves (hshutdown.trans (hsaves sv hmem))

theorem whole_save (h : Refines s t) {i : ℕ} {sv : Save} (hi : s.saves[i]? = some sv) :
    t.core.saves[s.saves.length-1-i]? = some sv := by
  rw [h.saves,reverse_get s.saves i (List.getElem?_eq_some_iff.mp hi).1,hi]

theorem startShutdown_refines (h : Refines s t) (hlive : s.manager.cancelled = false) :
    Refines (startShutdown s) (Lifecycle.startShutdown t) := by
  obtain ⟨core,requests⟩ := t
  obtain ⟨hm,hc,hf,hs,hown,hanswered⟩ := h
  have hnone : s.shutdown = none ∧ requests = [] := by
    cases hanswered with
    | live shutdown waits saves => exact ⟨shutdown,rfl⟩
    | called r cancelled last =>
      rw [hlive] at cancelled
      cases cancelled
  obtain ⟨hshutdown,rfl⟩ := hnone
  dsimp only at hm hc hf hs
  unfold startShutdown Lifecycle.startShutdown
  rw [hm]
  unfold shutdownAsync
  rw [hlive]
  by_cases hp : s.manager.pendingInternalSaveStateCalls = 0
  · simp only [hp,if_true,Bool.false_eq_true,if_false]
    refine ⟨rfl,hc,hf,?_,?_,?_⟩
    · show core.saves++[_] = (_::s.saves).reverse
      rw [hs,hc,List.reverse_cons]
      rfl
    · exact List.forall_mem_cons.mpr ⟨rfl,hown⟩
    · exact .called _ rfl (by rw [hshutdown]; rfl)
  · simp only [hp,Bool.false_eq_true,if_false]
    exact ⟨rfl,hc,hf,hs,hown,.called _ rfl (by rw [hshutdown]; rfl)⟩

theorem deliver_last (r : Request) (answer : Option Answer) :
    ∃ r', deliver [r] answer = [r'] ∧ r'.answers.getLast? = answer.or r.answers.getLast? := by
  cases answer with
  | none => exact ⟨r,rfl,rfl⟩
  | some a => exact ⟨_,rfl,List.getLast?_concat⟩

theorem internalSaveStateCb_unasked (self : EpgManager) (result : Except GIOError Unit)
    (h : self.pendingShutdown = none) :
    (internalSaveStateCb self result).2 = none ∧
      (internalSaveStateCb self result).1.pendingShutdown = none := by
  unfold internalSaveStateCb
  dsimp only
  split_ifs with hp hlast
  · exact absurd h hlast.2
  · exact ⟨rfl,h⟩
  · exact ⟨rfl,h⟩

theorem report_refines (h : Refines s t) {i : ℕ} {sv : Save} (hi : s.saves[i]? = some sv)
    (result : Except GIOError Unit) :
    Refines (report s i sv result) (Lifecycle.report t (s.saves.length-1-i) sv result) := by
  have hmem := List.mem_of_getElem? hi
  obtain ⟨core,requests⟩ := t
  have hset : Refines { s with saves := s.saves.set i { sv with reported := true } }
      ⟨{ core with
        saves := core.saves.set (s.saves.length-1-i) { sv with reported := true }
        files := s.files }, requests⟩ := set_refines h hi rfl rfl
  obtain ⟨hm,hc,hf,-,hown,hanswered⟩ := h
  dsimp only at hm hc hf
  unfold report Lifecycle.report
  dsimp only
  rcases Bool.eq_false_or_eq_true sv.forShutdown with hsd | hsd
  · rw [if_pos hsd,if_pos hsd]
    refine ⟨hm,hc,hf,hset.saves,hset.own,?_⟩
    cases hanswered with
    | live shutdown waits saves =>
      rw [saves sv hmem] at hsd
      cases hsd
    | called r cancelled last =>
      obtain ⟨r',hr',hlast⟩ := deliver_last r (some (.saved result))
      rw [hr']
      exact .called r' cancelled hlast
  · have hnot : ¬ sv.forShutdown = true := Bool.eq_false_iff.mp hsd
    have hcore : Initialisation.saveCb core (s.saves.length-1-i) sv result =
        Initialisation.setReported core (s.saves.length-1-i) sv
          (internalSaveStateCb s.manager result).1 := by
      unfold Initialisation.saveCb Initialisation.acted Initialisation.saveActs
      rw [hown sv hmem,hm]
      rfl
    rw [if_neg hnot,if_neg hnot,hcore,hm]
    refine ⟨rfl,hc,hf,hset.saves,hset.own,?_⟩
    cases hanswered with
    | live shutdown waits saves =>
      obtain ⟨hanswer,hpending⟩ := internalSaveStateCb_unasked s.manager result waits
      rw [hanswer]
      exact .live shutdown hpending (forall_set s.saves i _ saves hsd)
    | called r cancelled last =>
      obtain ⟨r',hr',hlast⟩ := deliver_last r
        ((internalSaveStateCb s.manager result).2.map Answer.saved)
      rw [hr']
      refine .called r' ((internalSaveStateCb_kept s.manager result).2.2.trans cancelled) ?_
      rw [hlast,last,Option.map_or]

/-- Each step is a step of the whole manager. -/
theorem step_refines {op : Operation} (h : Refines s t) (hs : step hmac s op = some s') :
    ∃ t', Lifecycle.step hmac t (whole s op) = some t' ∧ Refines s' t' := by
  cases op with
  | addCode codeStr =>
    simp only [step] at hs
    split_ifs at hs with hg
    cases hs
    refine ⟨_,rfl,?_⟩
    rw [h.manager,h.clock]
    exact serve_refines h (addCode_serves hmac s.manager s.clock codeStr)
  | clearCode =>
    simp only [step] at hs
    split_ifs at hs with hg
    cases hs
    refine ⟨_,rfl,?_⟩
    rw [h.manager,h.clock]
    exact serve_refines h (clearCode_serves s.manager s.clock)
  | wallclockTimeChanged delta =>
    simp only [step] at hs
    split_ifs at hs with hg
    cases hs
    refine ⟨_,rfl,?_⟩
    rw [h.manager,h.clock]
    exact serve_refines h (wallclockTimeChanged_serves s.manager s.clock delta)
  | timePasses clock =>
    simp only [step] at hs
    split_ifs at hs with hg
    cases hs
    have hle : t.core.clock.time ≤ clock.time := h.clock ▸ hg
    refine ⟨{ t with core := { t.core with clock := clock } },?_,?_⟩
    · show (if t.core.clock.time ≤ clock.time then some { t.core with clock := clock }
        else none).map _ = _
      rw [if_pos hle]
      rfl
    · obtain ⟨hm,-,hf,hsaves,hown,hanswered⟩ := h
      exact ⟨hm,rfl,hf,hsaves,hown,answered_kept hanswered rfl rfl rfl id⟩
  | shutdown =>
    simp only [step] at hs
    split_ifs at hs with hg
    cases hs
    exact ⟨_,rfl,startShutdown_refines h (Bool.eq_false_iff.mpr hg)⟩
  | takeEffect i f =>
    simp only [step,bind,Option.bind_eq_some_iff] at hs
    obtain ⟨sv,hi,⟨sv',files'⟩,he,hs⟩ := hs
    cases hs
    obtain ⟨-,-,rfl⟩ := takeEffect_some sv sv' f s.files files' he
    refine ⟨_,?_,set_refines h hi rfl rfl⟩
    simp only [whole,Lifecycle.step,Initialisation.step,bind,whole_save h hi,h.files,
      Option.bind_some,he]
    rfl
  | fail i f error =>
    simp only [step,bind,Option.bind_eq_some_iff] at hs
    obtain ⟨sv,hi,sv',he,hs⟩ := hs
    cases hs
    obtain ⟨-,-,rfl⟩ := fail_some sv sv' f error he
    refine ⟨_,?_,set_refines h hi rfl rfl⟩
    simp only [whole,Lifecycle.step,Initialisation.step,bind,whole_save h hi,
      Option.bind_some,he]
    rw [← h.files]
    rfl
  | opCb i f =>
    simp only [step,bind,Option.bind_eq_some_iff] at hs
    obtain ⟨sv,hi,sv',he,hs⟩ := hs
    cases hs
    obtain ⟨error,-,rfl⟩ := opCb_some sv sv' f he
    refine ⟨_,?_,set_refines h hi rfl rfl⟩
    simp only [whole,Lifecycle.step,Initialisation.step,bind,whole_save h hi,
      Option.bind_some,he]
    rw [← h.files]
    rfl
  | saveCb i =>
    simp only [step,bind,Option.bind_eq_some_iff] at hs
    obtain ⟨sv,hi,result,hresult,hs⟩ := hs
    split_ifs at hs with hr
    cases hs
    refine ⟨_,?_,report_refines h hi result⟩
    simp only [whole,Lifecycle.step,bind,whole_save h hi,hresult,Option.bind_some,if_neg hr]
    rfl

/-- A run from a manager with nothing in flight is a run of any whole manager in that
state, be it just initialised. -/
theorem run_refines (hmac : Hmac) (self : EpgManager) (clock : EpgClock) (files : Directory)
    (hself : self.pendingShutdown = none) (core : Initialisation.System)
    (hm : core.manager = self) (hc : core.clock = clock) (hf : core.files = files)
    (hs : core.saves = []) (ops : List Operation)
    (hr : run (step hmac) ops (quiet self clock files) = some s) :
    ∃ t, run (Lifecycle.step hmac)
      (trace (step hmac) (fun s op => [whole s op]) ops (quiet self clock files))
      ⟨core, []⟩ = some t ∧ Refines s t := by
  have hstart : Refines (quiet self clock files) ⟨core, []⟩ :=
    ⟨hm,hc,hf,hs,List.forall_mem_nil _,.live rfl hself (List.forall_mem_nil _)⟩
  refine run_simulated (fun s op s' t h hstep => ?_) hstart hr
  obtain ⟨t',ht,h'⟩ := step_refines h hstep
  exact ⟨t',run_cons.mpr ⟨t',ht,run_nil _⟩,h'⟩

end EosPayg.ShutdownRefinement
