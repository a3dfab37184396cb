import EosPayg.ExpiryLoad
import EosPayg.Startup

/-!
# How often initialisation sets the expiry time

The callback of a file sets an expiry time by itself, or deduces one once the
clock time and the expiry seconds are both known, or leaves it to the file that
follows. An empty clock time is known to none of them: the expiry seconds that
follow wait for it, and nothing is set.
-/

set_option autoImplicit false

namespace EosPayg.ExpiryDecision
open EosPayg.WordArithmetic EosPayg.ManagerState EosPayg.ManagerFiles EosPayg.GuardedRun
  EosPayg.Initialisation EosPayg.InitFault EosPayg.InitOutcome EosPayg.ExpiryCallback
  EosPayg.ExpiryLoad
open EosPayg.MultiTask (gTaskHadError)
open EosPayg.ExpiryTimer (fileSpan deducedSpan loadedBytes loadFile_kept deduceExpiryTime_span)
open EosPayg.LoadCallback (deducedSpan_unknown deducedSpan_other)
open EosPayg.Startup (loadNow saveNow)

structure Call where
  nowSecs : UInt64
  spanSecs : UInt64
  deriving DecidableEq

/-- The spans the callback of a file sets, in order: its own, and then the one
deduced. A malformed file leads to neither. -/
def callSpans (self : EpgManager) (clock : EpgClock) (file : StateFile)
    (data : Option (List UInt8)) : List UInt64 :=
  if (loadFile self clock file data).1 then
    (fileSpan clock file (data.getD [])).toList++
      (deducedSpan (loadFile self clock file data).2.1 clock file).toList
  else []

def loadCalls (s : System) (l : Load) (result : LoadResult) : List Call :=
  if gTaskHadError s.task then []
  else match loadedBytes result with
    | some data =>
      (callSpans s.manager s.clock l.file data).map (fun span => ⟨s.clock.time, span⟩)
    | none => []

def calls (s : System) : Operation → List Call
  | .loadCb i =>
    match s.loads[i]? with
    | some l =>
      match l.status with
      | .read result => loadCalls s l result
      | _ => []
    | none => []
  | _ => []

def loggedStep (p : System × List Call) (op : Operation) : Option (System × List Call) :=
  (step p.1 op).map (fun s => (s,p.2++calls p.1 op))

/-- The expiry time was set once, to no earlier than the second it was set at. -/
def SetOnce (p : System × List Call) : Prop :=
  ∃ call, p.2 = [call] ∧ call.nowSecs ≤ p.1.manager.expiryTimeSecs

/-- The clock time is there but empty, and the expiry seconds hold something. -/
def Stranded (files : Directory) : Prop :=
  files .clockTime = some [] ∧ ((files .expirySeconds).getD []).length ≠ 0

instance (files : Directory) : Decidable (Stranded files) :=
  inferInstanceAs (Decidable (_ ∧ _))

theorem loadFile_sets (self : EpgManager) (clock : EpgClock) (file : StateFile)
    (data : Option (List UInt8)) (span : UInt64) (h : (loadFile self clock file data).1 = true)
    (hs : fileSpan clock file (data.getD []) = some span) :
    (loadFile self clock file data).2.1.expiryTimeSecs = expiryAfter clock clock.time span := by
  cases file with
  | expirySeconds =>
    simp only [loadFile,loadExpirySeconds,fileSpan] at h hs ⊢
    split_ifs at h hs ⊢ with h0
    cases hs
    rw [setExpiryTime_state]
  | expiryTime =>
    simp only [loadFile,loadExpiryTime,fileSpan] at h hs ⊢
    by_cases h0 : (data.getD []).length = 0
    · rw [if_pos h0] at hs ⊢
      cases hs
      rw [setExpiryTime_state]
    · rw [if_neg h0] at h hs ⊢
      by_cases h8 : (data.getD []).length ≠ 8
      · rw [if_pos h8] at h
        cases h
      · rw [if_neg h8]
        cases hs
        rw [andThen_state,setExpiryTime_state]
  | _ => cases hs

theorem deduceExpiryTime_sets (self : EpgManager) (clock : EpgClock) (file : StateFile) :
    (deduceExpiryTime self clock file).1.expiryTimeSecs =
      (deducedSpan self clock file).elim self.expiryTimeSecs (expiryAfter clock clock.time) := by
  rw [deduceExpiryTime_span]
  cases deducedSpan self clock file with
  | none => rfl
  | some span =>
    show (setExpiryTime self clock true true clock.time span).1.expiryTimeSecs = _
    rw [setExpiryTime_state]
    rfl

theorem callSpans_last (self : EpgManager) (clock : EpgClock) (file : StateFile)
    (data : Option (List UInt8)) :
    (updateFromFile self clock file data).1.expiryTimeSecs =
      (callSpans self clock file data).getLast?.elim self.expiryTimeSecs
        (expiryAfter clock clock.time) := by
  unfold updateFromFile callSpans
  by_cases hok : (loadFile self clock file data).1 = true
  · simp only [if_pos hok,andThen_state,deduceExpiryTime_sets]
    cases hf : fileSpan clock file (data.getD []) with
    | none =>
      rw [(loadFile_kept self clock file data (Or.inr hf)).1]
      cases deducedSpan (loadFile self clock file data).2.1 clock file <;> rfl
    | some span =>
      rw [loadFile_sets self clock file data span hok hf]
      cases deducedSpan (loadFile self clock file data).2.1 clock file <;> rfl
  · simp only [if_neg hok]
    exact (loadFile_kept self clock file data (Or.inl (by simpa using hok))).1

theorem callSpans_aside (self : EpgManager) (clock : EpgClock) (file : StateFile)
    (data : Option (List UInt8)) (hf : StateFile.ofExpiry file = false) :
    callSpans self clock file data = [] := by
  have hown : fileSpan clock file (data.getD []) = none := by
    cases file <;> first | rfl | cases hf
  have hother : file ≠ .clockTime ∧ file ≠ .expirySeconds := by
    constructor <;> rintro rfl <;> cases hf
  unfold callSpans
  rw [hown,deducedSpan_other _ clock file hother]
  exact ite_self _

theorem clockTime_calls (self : EpgManager) (clock : EpgClock) (data : Option (List UInt8))
    (hx : self.lastSaveExpirySecs = none) : callSpans self clock .clockTime data = [] := by
  have hkept : (loadFile self clock .clockTime data).2.1.lastSaveExpirySecs = none := by
    simp only [loadFile,loadWallclockTime]
    split_ifs <;> exact hx
  unfold callSpans
  rw [deducedSpan_unknown _ clock _ (Or.inr hkept)]
  exact ite_self _

theorem expiryTime_calls (self : EpgManager) (clock : EpgClock) (data : Option (List UInt8))
    (h : ¬ MalformedData data .expiryTime) :
    callSpans self clock .expiryTime data = [legacySpan clock data] := by
  rw [wordFile_malformed data .expiryTime (fun _ => rfl)] at h
  unfold callSpans legacySpan
  rw [deducedSpan_other _ clock .expiryTime (by decide)]
  simp only [loadFile,loadExpiryTime,fileSpan]
  by_cases h0 : (data.getD []).length = 0
  · rw [if_pos h0,if_pos h0,savedWord_none h0]
    rfl
  · rw [if_neg h0,if_neg h0,if_neg (fun h8 => h ⟨h0,h8⟩),savedWord_some h0]
    rfl

theorem expirySeconds_calls (self : EpgManager) (clock : EpgClock) (data : Option (List UInt8))
    (h : ¬ MalformedData data .expirySeconds) (hx : self.lastSaveExpirySecs = none) :
    callSpans self clock .expirySeconds data =
      (secondsSpan clock self.lastSaveTimeSecs data).toList := by
  unfold callSpans secondsSpan
  by_cases h0 : (data.getD []).length = 0
  · have hset := (setExpiryTime_lastSave self clock true true clock.time 0).trans hx
    rw [expirySeconds_empty self clock data h0,savedWord_none h0,
      deducedSpan_unknown _ clock _ (Or.inr hset)]
    simp only [fileSpan,if_pos h0]
    rfl
  · rw [expirySeconds_word self clock data h h0,savedWord_some h0]
    simp only [fileSpan,if_neg h0,deducedSpan]
    cases self.lastSaveTimeSecs <;> rfl

theorem childFile_calls (self : EpgManager) (clock : EpgClock) (files : Directory)
    (h : ¬ MalformedData (files (childFile (files .clockTime))) (childFile (files .clockTime)))
    (ht : self.lastSaveTimeSecs = savedWord (files .clockTime))
    (hx : self.lastSaveExpirySecs = none) :
    callSpans self clock (childFile (files .clockTime)) (files (childFile (files .clockTime))) =
      (creditSpan clock files).toList := by
  unfold creditSpan
  by_cases hc : files .clockTime = none
  · rw [if_pos hc]
    rw [childFile,if_pos hc] at h ⊢
    exact expiryTime_calls self clock (files .expiryTime) h
  · rw [if_neg hc,← ht]
    rw [childFile,if_neg hc] at h ⊢
    exact expirySeconds_calls self clock (files .expirySeconds) h hx

theorem creditSpan_none_iff (clock : EpgClock) (files : Directory) :
    creditSpan clock files = none ↔ Stranded files := by
  unfold creditSpan Stranded
  cases hc : files .clockTime with
  | none => simp
  | some bytes =>
    rw [if_neg (Option.some_ne_none bytes)]
    unfold secondsSpan savedWord
    by_cases hx : ((files .expirySeconds).getD []).length = 0
    · rw [if_pos hx]
      exact iff_of_false (Option.some_ne_none _) (fun hh => hh.2 hx)
    · rw [if_neg hx]
      by_cases hb : bytes.length = 0
      · rw [List.length_eq_zero_iff] at hb
        subst hb
        exact iff_of_true rfl ⟨rfl,hx⟩
      · have hne : bytes ≠ [] := fun hh => hb (congrArg List.length hh)
        simp [hne,hx]

def Decides (s : System) (op : Operation) : Prop :=
  ∃ i l result, op = .loadCb i ∧ s.loads[i]? = some l ∧ l.status = .read result ∧
    StateFile.ofExpiry l.file = true

theorem loadCb_calls {s : System} {i : ℕ} {l : Load} {result : LoadResult}
    (hi : s.loads[i]? = some l) (hl : l.status = .read result) :
    calls s (.loadCb i) = loadCalls s l result := by
  simp only [calls,hi,hl]

theorem calls_aside {s : System} {op : Operation} (h : ¬ Decides s op) : calls s op = [] := by
  cases op with
  | loadCb i =>
    cases hi : s.loads[i]? with
    | none => simp only [calls,hi]
    | some l =>
      cases hl : l.status with
      | read result =>
        have hf : StateFile.ofExpiry l.file = false := by
          by_contra hf
          exact h ⟨i,l,result,rfl,hi,hl,by simpa using hf⟩
        rw [loadCb_calls hi hl]
        unfold loadCalls
        cases loadedBytes result with
        | none => exact ite_self _
        | some data =>
          simp only [callSpans_aside _ _ _ _ hf]
          exact ite_self _
      | _ => simp only [calls,hi,hl]
  | _ => rfl

theorem undecided_calls {files : Directory} {file : StateFile} {s s' : System} {op : Operation}
    (h : Undecided files file s) (hs : step s op = some s') :
    (Undecided files file s' ∧ s'.manager.lastSaveTimeSecs = s.manager.lastSaveTimeSecs ∧
        calls s op = []) ∨
      ∃ i l result, op = .loadCb i ∧ s.loads[i]? = some l ∧ Load.decides l = true ∧
        l.file = file ∧ l.status = .read result ∧ (result = loadContents files file ∨
          ∃ error, error ≠ .notFound ∧ result = .failed error) ∧ s' = loadCb s i l result := by
  by_cases hdec : Decides s op
  · obtain ⟨i,l,result,rfl,hi,hl,hf⟩ := hdec
    have hd : Load.decides l = true := (uncalled_decides (read_uncalled hl)).trans hf
    obtain ⟨hfile,hreads⟩ := h.loads l (List.mem_of_getElem? hi) hd
    have hs' : s' = loadCb s i l result := by
      simpa [step,hi,hl] using hs.symm
    exact Or.inr ⟨i,l,result,rfl,hi,hd,hfile,hl,hfile ▸ hreads result hl,hs'⟩
  · rcases undecided_step h hs with ⟨hu,ht⟩ | ⟨i,l,result,rfl,hi,hd,-,hl,-⟩
    · exact Or.inl ⟨hu,ht,calls_aside hdec⟩
    · have hf := (uncalled_decides (read_uncalled hl)).symm.trans hd
      exact absurd ⟨i,l,result,rfl,hi,hl,hf⟩ hdec

theorem decided_calls {s : System} {op : Operation} (h : undecided s = 0) : calls s op = [] := by
  apply calls_aside
  rintro ⟨i,l,result,rfl,hi,hl,hf⟩
  have hd := (uncalled_decides (read_uncalled hl)).trans hf
  exact List.countP_eq_zero.mp h l (List.mem_of_getElem? hi) hd

def Ended (files : Directory) (p : System × List Call) : Prop :=
  (Stranded files ∧ p.2 = []) ∨ (¬ Stranded files ∧ SetOnce p)

/-- What is known of the calls while initialisation goes on: unless there was a
fault, there was none before the file that the clock time calls for. -/
structure Logged (files : Directory) (p : System × List Call) : Prop where
  completing : Completing p.1
  stage : Faulted p.1 ∨
    (Undecided files .clockTime p.1 ∧ p.1.manager.lastSaveTimeSecs = none ∧ p.2 = []) ∨
    (Undecided files (childFile (files .clockTime)) p.1 ∧
      p.1.manager.lastSaveTimeSecs = savedWord (files .clockTime) ∧ p.2 = []) ∨
    (undecided p.1 = 0 ∧ Ended files p)

theorem childFile_ended {files : Directory} {s : System} (h : Completing s) (hno : ¬ Faulted s)
    (hu : Undecided files (childFile (files .clockTime)) s)
    (ht : s.manager.lastSaveTimeSecs = savedWord (files .clockTime)) (i : ℕ) (l : Load)
    (result : LoadResult) (hi : s.loads[i]? = some l) (hd : Load.decides l = true)
    (hfile : l.file = childFile (files .clockTime)) (hl : l.status = .read result)
    (hr : result = loadContents files (childFile (files .clockTime)) ∨
      ∃ error, error ≠ .notFound ∧ result = .failed error) :
    undecided (loadCb s i l result) = 0 ∧
      Ended files (loadCb s i l result,loadCalls s l result) := by
  have hm := List.mem_of_getElem? hi
  obtain ⟨hformed,hcb⟩ := faultless_callback h hno l result _ hm hfile hl hr
  obtain ⟨herr,-,hread⟩ := faultless_read h hno l result _ hm hfile hl hr
  have hset := childFile_settles s.manager s.clock files hformed hu.expiryTimeSecs ht
    hu.lastSaveExpirySecs
  have hspans := childFile_calls s.manager s.clock files hformed ht hu.lastSaveExpirySecs
  have hcalls : loadCalls s l result =
      (creditSpan s.clock files).toList.map (fun span => ⟨s.clock.time, span⟩) := by
    unfold loadCalls
    rw [herr,hread,loadedBytes_loadContents,hfile]
    simp only [hspans,Bool.false_eq_true,if_false]
  have hx : (loadCb s i l result).manager.expiryTimeSecs = expiryOf s.clock files := by
    rw [(loadCb_lists s i l result _ hcb).2.2.2.2.2]
    exact hset.expiryTimeSecs
  refine ⟨settled_undecided hu i l result hi hd _ hcb hset.loads,?_⟩
  cases hspan : creditSpan s.clock files with
  | none =>
    left
    refine ⟨(creditSpan_none_iff s.clock files).mp hspan,?_⟩
    rw [hcalls,hspan]
    rfl
  | some span =>
    right
    refine ⟨fun hn => ?_,⟨s.clock.time, span⟩,?_,?_⟩
    · rw [(creditSpan_none_iff s.clock files).mpr hn] at hspan
      cases hspan
    · rw [hcalls,hspan]
      rfl
    · rw [hx,expiryOf,hspan]
      exact UInt64.le_iff_toNat_le.mpr (expiryAfter_ge s.clock s.clock.time span)

theorem loggedStep_some {p p' : System × List Call} {op : Operation}
    (hs : loggedStep p op = some p') :
    step p.1 op = some p'.1 ∧ p'.2 = p.2++calls p.1 op := by
  obtain ⟨s',hstep,rfl⟩ := Option.map_eq_some_iff.mp hs
  exact ⟨hstep,rfl⟩

theorem step_logged {files : Directory} (p : System × List Call) (op : Operation)
    (p' : System × List Call) (h : Logged files p) (hs : loggedStep p op = some p') :
    Logged files p' := by
  obtain ⟨s,log⟩ := p
  obtain ⟨s',log'⟩ := p'
  obtain ⟨hstep,hlog⟩ := loggedStep_some hs
  dsimp only at hstep hlog
  refine ⟨step_completing h.completing hstep,?_⟩
  by_cases hf : Faulted s
  · exact Or.inl ((completing_faulted h.completing hstep).mpr (Or.inl hf))
  right
  rcases h.stage with hbad | ⟨hu,ht,hnil⟩ | ⟨hu,ht,hnil⟩ | ⟨hz,hended⟩
  · exact absurd hbad hf
  · dsimp only at hu ht hnil
    rw [hnil,List.nil_append] at hlog
    rcases undecided_calls hu hstep with ⟨hu',ht',hnone⟩ | ⟨i,l,result,rfl,hi,hd,hfile,hl,hr,rfl⟩
    · exact Or.inl ⟨hu',ht'.trans ht,hlog.trans hnone⟩
    · have hm := List.mem_of_getElem? hi
      obtain ⟨hformed,hcb⟩ := faultless_callback h.completing hf l result .clockTime hm hfile hl hr
      obtain ⟨herr,-,hread⟩ := faultless_read h.completing hf l result .clockTime hm hfile hl hr
      rw [clockTime_formed s.manager s.clock (files .clockTime) hformed ht
        hu.lastSaveExpirySecs] at hcb
      obtain ⟨hu',ht'⟩ := handed_undecided hu i l result hi hd _ _ (childFile_ofExpiry _) hcb
      refine Or.inr (Or.inl ⟨hu',ht',?_⟩)
      rw [hlog,loadCb_calls hi hl]
      unfold loadCalls
      rw [herr,hread,loadedBytes_loadContents,hfile]
      simp only [clockTime_calls _ _ _ hu.lastSaveExpirySecs,Bool.false_eq_true,if_false]
      rfl
  · dsimp only at hu ht hnil
    rw [hnil,List.nil_append] at hlog
    rcases undecided_calls hu hstep with ⟨hu',ht',hnone⟩ | ⟨i,l,result,rfl,hi,hd,hfile,hl,hr,rfl⟩
    · exact Or.inr (Or.inl ⟨hu',ht'.trans ht,hlog.trans hnone⟩)
    · rw [loadCb_calls hi hl] at hlog
      rw [hlog]
      exact Or.inr (Or.inr (childFile_ended h.completing hf hu ht i l result hi hd hfile hl hr))
  · obtain ⟨hz',hx'⟩ := decided_step hz hstep
    rw [decided_calls hz,List.append_nil] at hlog
    refine Or.inr (Or.inr ⟨hz',?_⟩)
    rcases hended with ⟨hstranded,hnil⟩ | ⟨hns,call,hcall,hle⟩
    · exact Or.inl ⟨hstranded,hlog.trans hnil⟩
    · refine Or.inr ⟨hns,call,hlog.trans hcall,?_⟩
      show call.nowSecs ≤ s'.manager.expiryTimeSecs
      rw [hx']
      exact hle

theorem initAsync_logged (enabled : Bool) (clock : EpgClock) (files : Directory) :
    Logged files (initAsync (epgManagerInit enabled) clock files,[]) :=
  ⟨initAsync_completing _ clock files,
    Or.inr (Or.inl ⟨initAsync_undecided _ clock files rfl rfl,rfl,rfl⟩)⟩

/-- For every directory, order of steps and sequence of clock readings:
initialisation that succeeds has set the expiry time exactly once, to no earlier
than the second it was set at, exactly when the expiry seconds were not left
behind by an empty clock time. -/
theorem set_once_iff (enabled : Bool) (clock : EpgClock) (files : Directory)
    (ops : List Operation) (p : System × List Call)
    (hr : run loggedStep ops (initAsync (epgManagerInit enabled) clock files,[]) = some p)
    (hd : Initialised p.1) : SetOnce p ↔ ¬ Stranded files := by
  have h : Logged files p := run_invariant step_logged (initAsync_logged enabled clock files) hr
  obtain ⟨hc,he⟩ := initialised_complete h.completing hd
  have hall (file : StateFile) (hu : Undecided files file p.1) : False := by
    have hz : undecided p.1 = 0 := List.countP_eq_zero.mpr (fun l hl => by
      rw [Load.decides,hc.loads l hl]
      simp)
    rw [hu.one] at hz
    cases hz
  rcases h.stage with hf | ⟨hu,-⟩ | ⟨hu,-⟩ | ⟨-,hended⟩
  · have := (complete_told h.completing hc).mp hf
    rw [he] at this
    cases this
  · exact (hall _ hu).elim
  · exact (hall _ hu).elim
  · rcases hended with ⟨hstranded,hnil⟩ | ⟨hns,honce⟩
    · refine iff_of_false ?_ (fun hn => hn hstranded)
      rintro ⟨call,hcall,-⟩
      rw [hnil] at hcall
      cases hcall
    · exact iff_of_true honce hns

def truncatedFiles : Directory := Function.update Startup.savedFiles .clockTime (some [])

def loadAll : List Operation := loadNow 0 ++ loadNow 1 ++ loadNow 2 ++ loadNow 3 ++ loadNow 4

theorem set_once_iff_saved :
    ∃ p, run loggedStep (loadAll++saveNow)
        (initAsync (epgManagerInit true) Startup.hourLater Startup.savedFiles,[]) = some p ∧
      SetOnce p := by
  have h : (run loggedStep (loadAll++saveNow)
      (initAsync (epgManagerInit true) Startup.hourLater Startup.savedFiles,[])).any
        (fun p => p.1.task.returned = [.ok (.boolean true)]) = true := by decide +kernel
  obtain ⟨p,hp,hret⟩ := (Option.any_eq_true _ _).mp h
  have hd : Initialised p.1 := by
    use .boolean true
    rw [of_decide_eq_true hret]
    exact List.mem_singleton_self _
  exact ⟨p,hp,(set_once_iff true Startup.hourLater Startup.savedFiles _ p hp hd).mpr (by decide)⟩

/-- Initialisation succeeds, and the day of credit is neither set nor refused:
the expiry time is zero in the twentieth second after boot. -/
theorem truncated_clock_strands_credit :
    ∃ p, run loggedStep loadAll
        (initAsync (epgManagerInit true) Startup.hourLater truncatedFiles,[]) = some p ∧
      Initialised p.1 ∧ p.1.manager.enabled = true ∧ p.2 = [] ∧
      p.1.manager.expiryTimeSecs = 0 ∧ p.1.clock.time = 20 ∧ ¬ SetOnce p := by
  have h : (run loggedStep loadAll
      (initAsync (epgManagerInit true) Startup.hourLater truncatedFiles,[])).any
        (fun p => p.1.task.returned = [.ok (.boolean true)] ∧ p.1.manager.enabled = true ∧
          p.2 = [] ∧ p.1.manager.expiryTimeSecs = 0 ∧ p.1.clock.time = 20) = true := by
    decide +kernel
  obtain ⟨p,hp,hall⟩ := (Option.any_eq_true _ _).mp h
  obtain ⟨hret,hen,hnil,hx,ht⟩ := of_decide_eq_true hall
  refine ⟨p,hp,⟨.boolean true,?_⟩,hen,hnil,hx,ht,?_⟩
  · rw [hret]
    exact List.mem_singleton_self _
  · rintro ⟨call,hcall,-⟩
    rw [hnil] at hcall
    cases hcall

end EosPayg.ExpiryDecision
