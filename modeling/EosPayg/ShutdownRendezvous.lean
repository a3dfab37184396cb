import EosPayg.ShutdownRequests

/-!
# Waiting for the saves in flight

The pending count is the number of internal saves whose callbacks are to come.
The task of the first shutdown is held by the manager while there are any, or
by shutdown's own save, and is returned with the result of a save; every later call is
refused at once.
-/

set_option autoImplicit false

namespace EosPayg.ShutdownRendezvous
open EosPayg.PaygCodes EosPayg.ManagerState EosPayg.ManagerCode EosPayg.ManagerFiles
  EosPayg.SaveQueue EosPayg.SaveProgress EosPayg.GuardedRun EosPayg.RecordList EosPayg.Lifecycle
  EosPayg.ShutdownRequests
open EosPayg.InitProgress (work)
open EosPayg.Shutdown (waiting internalSaveStateCb shutdownTask shutdownAsync savesStarted
  addCode_serves clearCode_serves wallclockTimeChanged_serves)

def final (sv : Save) : Bool := sv.forShutdown && !sv.reported

structure Rendezvous (m : EpgManager) (saves : List Save) (requests : List Request) : Prop where
  good : ∀ sv ∈ saves, SaveOk sv
  counted : m.pendingInternalSaveStateCalls = saves.countP waiting
  stored : m.pendingShutdown ≠ none → 0 < m.pendingInternalSaveStateCalls
  unasked : requests = [] → m.cancelled = false ∧ m.pendingShutdown = none ∧
    ∀ sv ∈ saves, sv.forShutdown = false
  asked : requests ≠ [] → m.cancelled = true
  refused : ∀ r ∈ requests.tail, r.answers = [.refused cancelledError]
  answered : ∀ r ∈ requests.head?, ∀ a ∈ r.answers,
    ∃ sv ∈ saves, sv.reported = true ∧ sv.result.map Answer.saved = some a
  first : ∀ r ∈ requests.head?,
    r.answers.length+(if m.pendingShutdown = none then 0 else 1)+saves.countP final = 1
  within : ∀ r ∈ requests.head?, r.earlier ≤ saves.length
  before : ∀ r ∈ requests.head?, m.pendingShutdown = none →
    ∀ sv ∈ saves.take r.earlier, waiting sv = false

theorem final_waiting (sv : Save) (h : waiting sv = true) : final sv = false := by
  unfold waiting at h
  unfold final
  cases hs : sv.forShutdown with
  | true => simp [hs] at h
  | false => rfl

theorem waiting_forShutdown (sv : Save) (h : waiting sv = true) : sv.forShutdown = false := by
  unfold waiting at h
  cases hs : sv.forShutdown with
  | true => simp [hs] at h
  | false => rfl

theorem saveOk_reported {sv : Save} (h : SaveOk sv) : SaveOk { sv with reported := true } :=
  ⟨h.notCancelled,h.pending,h.errorReturned,h.failed,h.completed⟩

theorem grow {m m' : EpgManager} {saves : List Save} {requests : List Request}
    (h : Rendezvous m saves requests) (new : List Save)
    (hn : ∀ sv ∈ new, SaveOk sv ∧ waiting sv = true)
    (hp : m'.pendingInternalSaveStateCalls = m.pendingInternalSaveStateCalls+new.length)
    (hc : m'.cancelled = m.cancelled) (hs : m'.pendingShutdown = m.pendingShutdown) :
    Rendezvous m' (saves++new) requests := by
  have hw : new.countP waiting = new.length :=
    List.countP_eq_length.mpr (fun sv hsv => (hn sv hsv).2)
  have hf : new.countP final = 0 :=
    List.countP_eq_zero.mpr (fun sv hsv => by
      rw [final_waiting sv (hn sv hsv).2]
      exact Bool.false_ne_true)
  constructor
  · intro sv hsv
    rcases List.mem_append.mp hsv with ho | ho
    · exact h.good sv ho
    · exact (hn sv ho).1
  · rw [List.countP_append,hw,hp,h.counted]
  · intro hne
    rw [hs] at hne
    have := h.stored hne
    omega
  · intro hr
    obtain ⟨h1,h2,h3⟩ := h.unasked hr
    refine ⟨hc.trans h1,hs.trans h2,fun sv hsv => ?_⟩
    rcases List.mem_append.mp hsv with ho | ho
    · exact h3 sv ho
    · exact waiting_forShutdown sv (hn sv ho).2
  · exact fun hr => hc.trans (h.asked hr)
  · exact h.refused
  · intro r hr a ha
    obtain ⟨sv,hsv,hgot⟩ := h.answered r hr a ha
    exact ⟨sv,List.mem_append_left _ hsv,hgot⟩
  · intro r hr
    rw [List.countP_append,hf,hs]
    exact h.first r hr
  · intro r hr
    rw [List.length_append]
    exact (h.within r hr).trans (Nat.le_add_right _ _)
  · intro r hr hne sv hsv
    rw [List.take_append_of_le_length (h.within r hr)] at hsv
    exact h.before r hr (hs.symm.trans hne) sv hsv

theorem advance {m : EpgManager} {saves : List Save} {requests : List Request}
    (h : Rendezvous m saves requests) (i : ℕ) (sv sv' : Save) (hi : saves[i]? = some sv)
    (hp : Progress sv sv') (hres : ∀ x, sv.result = some x → sv'.result = some x) :
    Rendezvous m (saves.set i sv') requests := by
  have hmem := List.mem_of_getElem? hi
  have hw : waiting sv' = waiting sv := by
    unfold waiting
    rw [hp.forShutdown,hp.reported]
  have hf : final sv' = final sv := by
    unfold final
    rw [hp.forShutdown,hp.reported]
  constructor
  · exact forall_set saves i sv' h.good hp.ok
  · rw [countP_kept _ _ _ _ _ hi hw]
    exact h.counted
  · exact h.stored
  · intro hr
    obtain ⟨h1,h2,h3⟩ := h.unasked hr
    exact ⟨h1,h2,forall_set saves i sv' h3 (hp.forShutdown.trans (h3 sv hmem))⟩
  · exact h.asked
  · exact h.refused
  · intro r hr a ha
    apply exists_set saves i sv sv' hi (h.answered r hr a ha)
    rintro ⟨hrep,hgot⟩
    obtain ⟨x,hx,rfl⟩ := Option.map_eq_some_iff.mp hgot
    exact ⟨hp.reported.trans hrep,Option.map_eq_some_iff.mpr ⟨x,hres x hx,rfl⟩⟩
  · intro r hr
    rw [countP_kept _ _ _ _ _ hi hf]
    exact h.first r hr
  · intro r hr
    rw [List.length_set]
    exact h.within r hr
  · intro r hr hne o ho
    rcases mem_take_set _ _ _ _ _ _ hi ho with hh | ⟨hh,rfl⟩
    · exact h.before r hr hne o hh
    · exact hw.trans (h.before r hr hne sv hh)

/-- A callback reports a save: what the manager and the requests must be after
it for the accounts to be kept. -/
theorem reported {m m' : EpgManager} {saves : List Save} {r : Request} {answers : List Answer}
    {rest : List Request} (h : Rendezvous m saves (r::rest)) (i : ℕ) (sv : Save)
    (hi : saves[i]? = some sv)
    (hcount : m'.pendingInternalSaveStateCalls =
      (saves.set i { sv with reported := true }).countP waiting)
    (hstored : m'.pendingShutdown ≠ none → 0 < m'.pendingInternalSaveStateCalls)
    (hc : m'.cancelled = m.cancelled)
    (hanswers : ∀ a ∈ answers, a ∈ r.answers ∨ sv.result.map Answer.saved = some a)
    (hfirst : answers.length+(if m'.pendingShutdown = none then 0 else 1)+
      (saves.set i { sv with reported := true }).countP final = 1)
    (hbefore : m'.pendingShutdown = none → m.pendingShutdown = none ∨
      m'.pendingInternalSaveStateCalls = 0) :
    Rendezvous m' (saves.set i { sv with reported := true })
      ({ r with answers := answers }::rest) := by
  have hmem := List.mem_of_getElem? hi
  constructor
  · exact forall_set saves i _ h.good (saveOk_reported (h.good sv hmem))
  · exact hcount
  · exact hstored
  · exact nofun
  · exact fun _ => hc.trans (h.asked (List.cons_ne_nil _ _))
  · exact h.refused
  · rintro _ ⟨⟩ a ha
    rcases hanswers a ha with hold | hnew
    · exact exists_set saves i sv _ hi (h.answered r rfl a hold) (fun hgot => ⟨rfl,hgot.2⟩)
    · exact ⟨_,List.mem_set (List.getElem?_eq_some_iff.mp hi).1 _,rfl,hnew⟩
  · rintro _ ⟨⟩
    exact hfirst
  · rintro _ ⟨⟩
    rw [List.length_set]
    exact h.within r rfl
  · rintro _ ⟨⟩ hne o ho
    rcases hbefore hne with hold | hzero
    · rcases mem_take_set _ _ _ _ _ _ hi ho with hh | ⟨-,rfl⟩
      · exact h.before r rfl hold o hh
      · simp [waiting]
    · rw [hcount,List.countP_eq_zero] at hzero
      exact Bool.not_eq_true _ ▸ hzero o (List.mem_of_mem_take ho)

theorem unasked_reported {m : EpgManager} {saves : List Save} (h : Rendezvous m saves [])
    (i : ℕ) (sv : Save) (hi : saves[i]? = some sv) (left : ℕ)
    (hcount : left = (saves.set i { sv with reported := true }).countP waiting) :
    Rendezvous { m with pendingInternalSaveStateCalls := left }
      (saves.set i { sv with reported := true }) [] := by
  have hmem := List.mem_of_getElem? hi
  obtain ⟨h1,h2,h3⟩ := h.unasked rfl
  constructor
  · exact forall_set saves i _ h.good (saveOk_reported (h.good sv hmem))
  · exact hcount
  · exact fun hne => absurd h2 hne
  · exact fun _ => ⟨h1,h2,forall_set saves i _ h3 (h3 sv hmem)⟩
  · exact fun hne => absurd rfl hne
  · exact nofun
  · exact nofun
  · exact nofun
  · exact nofun
  · exact nofun

theorem deliver_none (requests : List Request) : deliver requests none = requests := by
  cases requests <;> rfl

theorem reported_internal_counts (saves : List Save) (i : ℕ) (sv : Save)
    (hi : saves[i]? = some sv) (hr : sv.reported = false) (hs : sv.forShutdown = false) :
    (saves.set i { sv with reported := true }).countP waiting+1 = saves.countP waiting ∧
      (saves.set i { sv with reported := true }).countP final = saves.countP final := by
  have hw := countP_exchange saves i sv { sv with reported := true } waiting hi
  have hf := countP_exchange saves i sv { sv with reported := true } final hi
  have h1 : waiting sv = true := by simp [waiting,hr,hs]
  have h2 : final sv = false := by simp [final,hs]
  have h3 : waiting { sv with reported := true } = false := by simp [waiting]
  have h4 : final { sv with reported := true } = false := by simp [final]
  rw [h1,h3] at hw
  rw [h2,h4] at hf
  exact ⟨hw,hf⟩

theorem reported_final_counts (saves : List Save) (i : ℕ) (sv : Save)
    (hi : saves[i]? = some sv) (hr : sv.reported = false) (hs : sv.forShutdown = true) :
    (saves.set i { sv with reported := true }).countP waiting = saves.countP waiting ∧
      (saves.set i { sv with reported := true }).countP final+1 = saves.countP final := by
  have hw := countP_exchange saves i sv { sv with reported := true } waiting hi
  have hf := countP_exchange saves i sv { sv with reported := true } final hi
  have h1 : waiting sv = false := by simp [waiting,hs]
  have h2 : final sv = true := by simp [final,hr,hs]
  have h3 : waiting { sv with reported := true } = false := by simp [waiting]
  have h4 : final { sv with reported := true } = false := by simp [final]
  rw [h1,h3] at hw
  rw [h2,h4] at hf
  exact ⟨hw,hf⟩

theorem answers_delivered {answers : List Answer} {sv : Save} {result : Except GIOError Unit}
    (hresult : sv.result = some result) :
    ∀ a ∈ answers++[Answer.saved result], a ∈ answers ∨ sv.result.map Answer.saved = some a := by
  intro a ha
  rw [List.mem_append,List.mem_singleton] at ha
  exact ha.imp_right fun hnew => by rw [hresult,hnew]; rfl

theorem internal_reported {m : EpgManager} {saves : List Save} {requests : List Request}
    (h : Rendezvous m saves requests) (i : ℕ) (sv : Save) (result : Except GIOError Unit)
    (hi : saves[i]? = some sv) (hresult : sv.result = some result)
    (hw : sv.forShutdown = false) (hr : sv.reported = false) :
    Rendezvous (internalSaveStateCb m result).1 (saves.set i { sv with reported := true })
      (deliver requests ((internalSaveStateCb m result).2.map Answer.saved)) := by
  obtain ⟨hcw,hcf⟩ := reported_internal_counts saves i sv hi hr hw
  have hcounted := h.counted
  have hpos : m.pendingInternalSaveStateCalls > 0 := by omega
  have hcount : m.pendingInternalSaveStateCalls-1 =
      (saves.set i { sv with reported := true }).countP waiting := by omega
  unfold internalSaveStateCb
  rw [if_pos hpos]
  by_cases hlast : m.pendingInternalSaveStateCalls-1 = 0 ∧ m.pendingShutdown ≠ none
  · rw [if_pos hlast]
    rcases requests with _ | ⟨r,rest⟩
    · exact absurd (h.unasked rfl).2.1 hlast.2
    · have hf := h.first r rfl
      rw [if_neg hlast.2] at hf
      apply reported h i sv hi
      · exact hcount
      · exact fun hne => absurd rfl hne
      · rfl
      · exact answers_delivered hresult
      · show (r.answers++[_]).length+0+_ = 1
        rw [List.length_append,List.length_singleton,hcf]
        omega
      · exact fun _ => Or.inr hlast.1
  · rw [if_neg hlast]
    show Rendezvous _ _ (deliver requests none)
    rw [deliver_none]
    have hleft (hne : m.pendingShutdown ≠ none) : 0 < m.pendingInternalSaveStateCalls-1 :=
      Nat.pos_of_ne_zero (fun hz => hlast ⟨hz,hne⟩)
    rcases requests with _ | ⟨r,rest⟩
    · exact unasked_reported h i sv hi _ hcount
    · have hf := h.first r rfl
      apply reported h i sv hi
      · exact hcount
      · exact hleft
      · rfl
      · exact fun _ => Or.inl
      · show r.answers.length+(if m.pendingShutdown = none then 0 else 1)+_ = 1
        rw [hcf]
        exact hf
      · exact Or.inl

theorem final_reported {m : EpgManager} {saves : List Save} {requests : List Request}
    (h : Rendezvous m saves requests) (i : ℕ) (sv : Save) (result : Except GIOError Unit)
    (hi : saves[i]? = some sv) (hresult : sv.result = some result)
    (hw : sv.forShutdown = true) (hr : sv.reported = false) :
    Rendezvous m (saves.set i { sv with reported := true })
      (deliver requests (some (.saved result))) := by
  obtain ⟨hcw,hcf⟩ := reported_final_counts saves i sv hi hr hw
  have hmem := List.mem_of_getElem? hi
  rcases requests with _ | ⟨r,rest⟩
  · have hn := (h.unasked rfl).2.2 sv hmem
    rw [hw] at hn
    cases hn
  · have hf := h.first r rfl
    apply reported h i sv hi
    · exact h.counted.trans hcw.symm
    · exact h.stored
    · rfl
    · exact answers_delivered hresult
    · rw [List.length_append,List.length_singleton]
      omega
    · exact Or.inl

theorem refused_request {m : EpgManager} {saves : List Save} {requests : List Request}
    (h : Rendezvous m saves requests) (hc : m.cancelled = true) :
    Rendezvous m saves (requests++[⟨[.refused cancelledError], saves.length⟩]) := by
  rcases requests with _ | ⟨r,rest⟩
  · have hn := (h.unasked rfl).1
    rw [hc] at hn
    cases hn
  · constructor
    · exact h.good
    · exact h.counted
    · exact h.stored
    · exact nofun
    · exact fun _ => hc
    · intro o ho
      rcases List.mem_append.mp ho with hh | hh
      · exact h.refused o hh
      · rw [List.mem_singleton.mp hh]
    · rintro _ ⟨⟩
      exact h.answered r rfl
    · rintro _ ⟨⟩
      exact h.first r rfl
    · rintro _ ⟨⟩
      exact h.within r rfl
    · rintro _ ⟨⟩
      exact h.before r rfl

theorem requests_nil {m : EpgManager} {saves : List Save} {requests : List Request}
    (h : Rendezvous m saves requests) (hc : m.cancelled = false) : requests = [] := by
  by_contra hne
  rw [h.asked hne] at hc
  cases hc

theorem countP_final_none (saves : List Save) (h : ∀ sv ∈ saves, sv.forShutdown = false) :
    saves.countP final = 0 := by
  rw [List.countP_eq_zero]
  intro sv hsv
  simp [final,h sv hsv]

theorem stored_request {m : EpgManager} {saves : List Save} (h : Rendezvous m saves [])
    (hp : m.pendingInternalSaveStateCalls ≠ 0) :
    Rendezvous { m with cancelled := true, pendingShutdown := some shutdownTask } saves
      [⟨[], saves.length⟩] := by
  obtain ⟨-,-,h3⟩ := h.unasked rfl
  constructor
  · exact h.good
  · exact h.counted
  · exact fun _ => Nat.pos_of_ne_zero hp
  · exact nofun
  · exact fun _ => rfl
  · exact nofun
  · rintro _ ⟨⟩ a ha
    cases ha
  · rintro _ ⟨⟩
    rw [countP_final_none saves h3]
    rfl
  · rintro _ ⟨⟩
    exact Nat.le_refl _
  · exact fun _ _ hne => absurd hne (Option.some_ne_none _)

theorem saving_request {m : EpgManager} {saves : List Save} (h : Rendezvous m saves [])
    (hp : m.pendingInternalSaveStateCalls = 0) (saved : SavedState) (clock : EpgClock) :
    Rendezvous { m with cancelled := true }
      (saves++[saveStateAsync saved clock false true]) [⟨[], saves.length⟩] := by
  obtain ⟨-,h2,h3⟩ := h.unasked rfl
  have hzero := h.counted.symm.trans hp
  constructor
  · intro sv hsv
    rcases List.mem_append.mp hsv with hh | hh
    · exact h.good sv hh
    · rw [List.mem_singleton.mp hh]
      exact saveStateAsync_ok saved clock false true
  · rw [List.countP_append,hzero]
    exact hp
  · exact fun hne => absurd h2 hne
  · exact nofun
  · exact fun _ => rfl
  · exact nofun
  · rintro _ ⟨⟩ a ha
    cases ha
  · rintro _ ⟨⟩
    rw [List.countP_append,countP_final_none saves h3,if_pos h2]
    rfl
  · rintro _ ⟨⟩
    rw [List.length_append]
    exact Nat.le_add_right _ _
  · rintro _ ⟨⟩ - sv hsv
    rw [List.take_left] at hsv
    exact Bool.not_eq_true _ ▸ List.countP_eq_zero.mp hzero sv hsv

def Sound (s : System) : Prop := Rendezvous s.core.manager s.core.saves s.requests

theorem startShutdown_sound {s : System} (h : Sound s) : Sound (startShutdown s) := by
  unfold startShutdown shutdownAsync
  cases hc : s.core.manager.cancelled with
  | true => exact refused_request h hc
  | false =>
    have hr : s.requests = [] := requests_nil h hc
    have h' : Rendezvous s.core.manager s.core.saves [] := hr ▸ h
    by_cases hp : s.core.manager.pendingInternalSaveStateCalls = 0
    · simp only [Bool.false_eq_true,if_false,if_pos hp,hr]
      exact saving_request h' hp _ _
    · simp only [Bool.false_eq_true,if_false,if_neg hp,hr]
      exact stored_request h' hp

theorem savesStarted_new (clock : EpgClock) (effects : List Effect) :
    ∀ sv ∈ (savesStarted clock effects).reverse, SaveOk sv ∧ waiting sv = true := by
  intro sv hsv
  rw [savesStarted,List.reverse_reverse] at hsv
  obtain ⟨e,-,he⟩ := List.mem_filterMap.mp hsv
  cases e with
  | save saved forTask =>
    cases he
    exact ⟨saveStateAsync_ok _ _ _ _,rfl⟩
  | _ => cases he

theorem performed_sound (core : Initialisation.System) {requests : List Request} {m : EpgManager}
    (h : Rendezvous m core.saves requests) (out : Outcome) (ht : Tallied m out) :
    Rendezvous (Initialisation.performAll { core with manager := out.1 } out.2).manager
      (Initialisation.performAll { core with manager := out.1 } out.2).saves requests := by
  have hsaves := (performAll_saves out.2 { core with manager := out.1 }).1
  have hm := (Initialisation.performAll_extends out.2 { core with manager := out.1 }).manager
  rw [hsaves,hm]
  apply grow h _ (savesStarted_new _ _)
  · rw [List.length_reverse,savesStarted_length]
    exact ht.pending
  · exact ht.cancelled
  · exact ht.pendingShutdown

theorem core_sound {s s' : Initialisation.System} {requests : List Request}
    (h : Rendezvous s.manager s.saves requests) (op : Initialisation.Operation)
    (hne : ∀ i, op ≠ .saveCb i) (hs : Initialisation.step s op = some s') :
    Rendezvous s'.manager s'.saves requests := by
  cases Initialisation.step_cases s s' op hs with
  | timePasses clock => exact h
  | read i l hi hf => exact h
  | readFails i error l hi hf he => exact h
  | loadCb i l result hi hl =>
    exact performed_sound (Initialisation.setLoad s i l .called) h _
      (fileLoadCb_tallied s.manager s.clock _ l.file result)
  | delete i d hi hf => exact h
  | deleteFails i error d hi hf => exact h
  | deleteCb i d error hi hd =>
    obtain ⟨hm,hsv⟩ := deleteCb_same s i d error
    rw [hm,hsv]
    exact h
  | takeEffect i f sv sv' files' hi he =>
    have hok := h.good sv (List.mem_of_getElem? hi)
    have hsame := (takeEffect_some sv sv' f s.files files' he).2.2
    exact advance h i sv sv' hi (takeEffect_progress sv sv' f s.files files' hok he)
      (fun x hx => hsame ▸ hx)
  | fail i f error sv sv' hi he =>
    have hok := h.good sv (List.mem_of_getElem? hi)
    have hsame := (fail_some sv sv' f error he).2.2
    exact advance h i sv sv' hi (fail_progress sv sv' f error hok he).1 (fun x hx => hsame ▸ hx)
  | opCb i f sv sv' hi he =>
    have hok := h.good sv (List.mem_of_getElem? hi)
    exact advance h i sv sv' hi (opCb_progress sv sv' f hok he).1 (fun x hx => opCb_result he hx)
  | saveCb i sv result hi hresult hr => exact absurd rfl (hne i)

theorem report_sound {s : System} (h : Sound s) (i : ℕ) (sv : Save)
    (result : Except GIOError Unit) (hi : s.core.saves[i]? = some sv)
    (hresult : sv.result = some result) (hr : sv.reported = false) :
    Sound (report s i sv result) := by
  unfold report
  cases hs : sv.forShutdown with
  | true => exact final_reported h i sv result hi hresult hs hr
  | false =>
    obtain ⟨hm,hsv⟩ := saveCb_same s.core i sv result
    have hrep := internal_reported h i sv result hi hresult hs hr
    rw [← hm,← hsv] at hrep
    exact hrep

theorem step_sound (hmac : Hmac) (s s' : System) (op : Operation) (h : Sound s)
    (hs : step hmac s op = some s') : Sound s' := by
  cases op with
  | addCode codeStr =>
    cases hs
    exact performed_sound s.core h _ (serves_tallied (addCode_serves hmac _ _ codeStr))
  | clearCode =>
    cases hs
    exact performed_sound s.core h _ (serves_tallied (clearCode_serves _ _))
  | wallclockTimeChanged delta =>
    cases hs
    exact performed_sound s.core h _ (serves_tallied (wallclockTimeChanged_serves _ _ delta))
  | checkExpired =>
    cases hs
    exact performed_sound s.core h _ (checkExpiredCb_tallied _ _)
  | shutdown =>
    cases hs
    exact startShutdown_sound h
  | core op =>
    rcases core_cases hs with ⟨i,sv,result,-,hi,hresult,hr,rfl⟩ | ⟨hne,core,hcore,rfl⟩
    · exact report_sound h i sv result hi hresult hr
    · exact core_sound h op hne hcore

theorem constructed_sound (enabled : Bool) (clock : EpgClock) (files : Directory) :
    Sound (constructed enabled clock files) :=
  ⟨nofun,rfl,fun h => absurd rfl h,fun _ => ⟨rfl,rfl,nofun⟩,fun h => absurd rfl h,nofun,nofun,
    nofun,nofun,nofun⟩

def OnSave (i : ℕ) : Operation → Prop
  | .core (.takeEffect j _) => j = i
  | .core (.opCb j _) => j = i
  | .core (.saveCb j) => j = i
  | _ => False

theorem save_step (hmac : Hmac) {s : System} (h : Sound s) (i : ℕ) (sv : Save)
    (hi : s.core.saves[i]? = some sv) (hr : sv.reported = false) :
    ∃ op s', OnSave i op ∧ step hmac s op = some s' := by
  have henabled (op : Operation) (hon : OnSave i op) (hs : (step hmac s op).isSome = true) :
      ∃ op s', OnSave i op ∧ step hmac s op = some s' := by
    obtain ⟨s',hs'⟩ := Option.isSome_iff_exists.mp hs
    exact ⟨op,s',hon,hs'⟩
  rcases save_moves sv (h.good sv (List.mem_of_getElem? hi)) with ⟨f,hf⟩ | ⟨f,error,hf⟩ | ⟨r,hres⟩
  · apply henabled (.core (.takeEffect i f)) rfl
    simp [step,Initialisation.step,hi,Save.takeEffect,hf]
  · apply henabled (.core (.opCb i f)) rfl
    simp [step,Initialisation.step,hi,Save.opCb,hf]
  · apply henabled (.core (.saveCb i)) rfl
    simp [step,hi,hres,hr]

theorem request_cases {s : System} (h : Sound s) {r : Request} (hm : r ∈ s.requests) :
    r ∈ s.requests.head? ∨ r.answers.length = 1 := by
  cases hreq : s.requests with
  | nil =>
    rw [hreq] at hm
    cases hm
  | cons first rest =>
    rw [hreq] at hm
    rcases List.mem_cons.mp hm with rfl | ht
    · exact .inl rfl
    · exact .inr (congrArg List.length (h.refused r (by rw [hreq]; exact ht)))

theorem answered_once {s : System} (h : Sound s) :
    ∀ r ∈ s.requests, r.answers.length ≤ 1 := by
  intro r hm
  rcases request_cases h hm with hh | hone
  · have := h.first r hh
    omega
  · exact hone.le

theorem answered_all {s : System} (h : Sound s)
    (hall : ∀ sv ∈ s.core.saves, sv.reported = true) :
    ∀ r ∈ s.requests, r.answers.length = 1 := by
  intro r hm
  rcases request_cases h hm with hh | hone
  · have hfirst := h.first r hh
    have hw : s.core.saves.countP waiting = 0 :=
      List.countP_eq_zero.mpr (fun sv hsv => by simp [waiting,hall sv hsv])
    have hf : s.core.saves.countP final = 0 :=
      List.countP_eq_zero.mpr (fun sv hsv => by simp [final,hall sv hsv])
    have hnone : s.core.manager.pendingShutdown = none := by
      by_contra hne
      have hpos := h.stored hne
      rw [h.counted,hw] at hpos
      cases hpos
    rw [if_pos hnone,hf] at hfirst
    exact hfirst
  · exact hone

/-- When the first request is answered, the saves before it have been waited for. -/
theorem answered_waited {s : System} (h : Sound s) :
    ∀ r ∈ s.requests.head?, r.answers ≠ [] →
      ∀ sv ∈ s.core.saves.take r.earlier, waiting sv = false := by
  intro r hh hne
  have hfirst := h.first r hh
  have hlen := List.length_pos_iff.mpr hne
  refine h.before r hh ?_
  by_contra hp
  rw [if_neg hp] at hfirst
  omega

theorem onSave_callback {i : ℕ} {op : Operation} (h : OnSave i op) : Callback op = true := by
  cases op with
  | core op => cases op <;> first | rfl | cases h
  | _ => cases h

theorem run_sound {hmac : Hmac} {ops : List Operation} {s t : System} (h : Sound s)
    (hr : run (step hmac) ops s = some t) : Sound t :=
  run_invariant (fun a op b hi hs => step_sound hmac a b op hi hs) h hr

/-- The callbacks come to an end with every save reported. -/
theorem sound_settles (hmac : Hmac) {s : System} (h : Sound s) :
    ∃ more t, (∀ op ∈ more, Callback op = true) ∧ run (step hmac) more s = some t ∧
      ∀ sv ∈ t.core.saves, sv.reported = true := by
  have hmove (u : System) (hu : Sound u) :
      (∀ sv ∈ u.core.saves, sv.reported = true) ∨ ∃ op u', Callback op = true ∧
        step hmac u op = some u' ∧ Sound u' ∧ work u'.core < work u.core := by
    by_cases hall : ∀ sv ∈ u.core.saves, sv.reported = true
    · exact Or.inl hall
    · push Not at hall
      obtain ⟨sv,hm,hn⟩ := hall
      obtain ⟨i,hi⟩ := List.getElem?_of_mem hm
      obtain ⟨op,u',hon,hs⟩ := save_step hmac hu i sv hi (Bool.eq_false_iff.mpr hn)
      have hc := onSave_callback hon
      exact Or.inr ⟨op,u',hc,hs,step_sound hmac u u' op hu hs,callback_work hc hs⟩
  obtain ⟨more,t,hmore,-,ht,hall⟩ := exists_run_descent hmove h
  exact ⟨more,t,hmore,ht,hall⟩

/-- Throughout the life of a manager: the pending count is the number of internal
saves whose callbacks are to come; a shutdown is stored only while there are
any; every call of shutdown leaves one request, which remembers the saves started
before it; every request is answered at most once, and once when no callback of a save
is to come, the first with the result of a save and not before every internal save
started before it was reported; and a save that is not reported can go on, until after
boundedly many callbacks all are and all requests are answered. -/
theorem rendezvous_sound (hmac : Hmac) (enabled : Bool) (clock : EpgClock) (files : Directory)
    (ops : List Operation) (s : System)
    (hr : run (step hmac) ops (constructed enabled clock files) = some s) :
    s.core.manager.pendingInternalSaveStateCalls = s.core.saves.countP waiting ∧
    (∀ sv ∈ s.core.saves, waiting sv = true → 0 < s.core.manager.pendingInternalSaveStateCalls) ∧
    (s.core.manager.pendingShutdown ≠ none →
      0 < s.core.manager.pendingInternalSaveStateCalls) ∧
    (∀ r ∈ s.requests, r.answers.length ≤ 1) ∧
    ((∀ sv ∈ s.core.saves, sv.reported = true) → ∀ r ∈ s.requests, r.answers.length = 1) ∧
    (∀ r ∈ s.requests.head?, r.answers ≠ [] →
      ∀ sv ∈ s.core.saves.take r.earlier, waiting sv = false) ∧
    (∀ i sv, s.core.saves[i]? = some sv → sv.reported = false →
      ∃ op s', OnSave i op ∧ step hmac s op = some s') ∧
    s.requests.length = ops.count .shutdown ∧
    (∀ before after, ops = before++.shutdown::after →
      ∃ m, run (step hmac) before (constructed enabled clock files) = some m ∧
        s.requests[before.count .shutdown]?.map Request.earlier = some m.core.saves.length ∧
        m.core.saves.map startedAs <+: s.core.saves.map startedAs) ∧
    (∀ r ∈ s.requests.tail, r.answers = [.refused cancelledError]) ∧
    (∀ r ∈ s.requests.head?, ∀ a ∈ r.answers,
      ∃ sv ∈ s.core.saves, sv.reported = true ∧ sv.result.map Answer.saved = some a) ∧
    (∀ more t, (∀ op ∈ more, Callback op = true) → run (step hmac) more s = some t →
      more.length ≤ work s.core) ∧
    ∃ more t, (∀ op ∈ more, Callback op = true) ∧ run (step hmac) more s = some t ∧
      (∀ sv ∈ t.core.saves, sv.reported = true) ∧ t.requests.length = s.requests.length ∧
      ∀ r ∈ t.requests, r.answers.length = 1 := by
  have h : Sound s := run_sound (constructed_sound enabled clock files) hr
  refine ⟨h.counted,?_,h.stored,answered_once h,answered_all h,answered_waited h,
    fun i sv hi hn => save_step hmac h i sv hi hn,?_,?_,h.refused,h.answered,?_,?_⟩
  · intro sv hsv hw
    rw [h.counted]
    exact List.countP_pos_iff.mpr ⟨sv,hsv,hw⟩
  · exact (run_requests hr).trans (Nat.zero_add _)
  · rintro before after rfl
    exact call_recorded hr rfl
  · intro more t hmore ht
    have hbound := run_descent (fun _ _ _ hc hs => callback_work hc hs) (along_of_forall hmore s) ht
    omega
  · obtain ⟨more,t,hmore,ht,hall⟩ := sound_settles hmac h
    refine ⟨more,t,hmore,ht,hall,?_,answered_all (run_sound h ht) hall⟩
    have hnone : more.count .shutdown = 0 :=
      List.count_eq_zero.mpr fun hm => Bool.false_ne_true (hmore _ hm)
    rw [run_requests ht,hnone,Nat.add_zero]

def exampleOps : List Operation :=
  [.clearCode, .shutdown, .shutdown, .core (.takeEffect 0 .clockTime),
    .core (.takeEffect 0 .expirySeconds), .core (.takeEffect 0 .usedCodes),
    .core (.opCb 0 .clockTime), .core (.opCb 0 .expirySeconds), .core (.opCb 0 .usedCodes),
    .core (.saveCb 0)]

/-- Two requests, made after one save; both are answered once it is reported. -/
theorem rendezvous_sound_example :
    ∃ s, run (step zeroHmac) exampleOps (constructed true ⟨100, 5000, true⟩ (fun _ => none)) =
        some s ∧ s.requests.length = 2 ∧ (∀ r ∈ s.requests, r.answers.length = 1) ∧
      s.requests[0]?.map Request.earlier = some 1 := by
  have h : (run (step zeroHmac) exampleOps
      (constructed true ⟨100, 5000, true⟩ (fun _ => none))).any
        (fun s => s.core.saves.all Save.reported) = true := by decide +kernel
  obtain ⟨s,hs,hall⟩ := (Option.any_eq_true _ _).mp h
  obtain ⟨-,-,-,-,honce,-,-,hlength,hcalls,-⟩ :=
    rendezvous_sound zeroHmac true ⟨100, 5000, true⟩ (fun _ => none) exampleOps s hs
  obtain ⟨m,hm,hearlier,-⟩ := hcalls [.clearCode] (exampleOps.drop 2) rfl
  cases hm
  exact ⟨s,hs,hlength,honce (List.all_eq_true.mp hall),hearlier⟩

end EosPayg.ShutdownRendezvous
