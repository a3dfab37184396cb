import EosPayg.Shutdown
import EosPayg.SaveProgress
import EosPayg.GuardedRun
import EosPayg.RecordList

/-!
# Shutting down while saves overlap

Saves that overlap may take effect in any order, so an older save may have the
last word on disk, and a failure may have been reported before shutdown was
asked for. In runs where neither happens, shutdown answers with success only
when the files are those of the newest save.
-/

set_option autoImplicit false

namespace EosPayg.ShutdownDurability
open EosPayg.WordArithmetic EosPayg.PaygCodes EosPayg.ManagerState EosPayg.ManagerCode
  EosPayg.ManagerFiles EosPayg.SaveQueue EosPayg.GuardedRun EosPayg.RecordList
  EosPayg.SaveProgress EosPayg.Shutdown

/-- No older save overwrites what the newest has written, and the newest save
does not fail unnoticed: not before a shutdown that waits for others, and
during one only as the last. -/
def Orderly (s : System) : Operation → Prop
  | .takeEffect i f => i = 0 ∨ ∀ sv ∈ s.saves[i]?, ∀ newest ∈ s.saves.head?,
      (newest.status f).took (saveOp newest.saved f) = true →
        (saveOp sv.saved f).result = (saveOp newest.saved f).result
  | .shutdown => s.manager.pendingInternalSaveStateCalls = 0 ∨
      ∀ newest ∈ s.saves.head?, newest.reported = true → anyFailed newest = false
  | .saveCb i => i = 0 → s.manager.pendingShutdown ≠ none →
      1 < s.manager.pendingInternalSaveStateCalls →
        ∀ newest ∈ s.saves.head?, anyFailed newest = false
  | _ => True

def Written (files : Directory) (sv : Save) : Prop :=
  ∀ f, (sv.status f).took (saveOp sv.saved f) = true →
    files (SaveFile.file f) = (saveOp sv.saved f).result

structure Invariant (key : Option (List UInt8)) (s : System) : Prop where
  good : ∀ sv ∈ s.saves, SaveGood sv
  counted : s.manager.pendingInternalSaveStateCalls = s.saves.countP waiting
  current : ∀ sv ∈ s.saves.head?, sv.saved = saveState s.manager sv.clock
  written : ∀ sv ∈ s.saves.head?, Written s.files sv
  key : s.files .key = key
  live : s.manager.cancelled = false →
    s.manager.pendingShutdown = none ∧ s.shutdown = none ∧ ∀ sv ∈ s.saves, sv.forShutdown = false
  tail : ∀ sv ∈ s.saves.tail, sv.forShutdown = false
  waits : s.manager.pendingShutdown ≠ none → ∀ sv ∈ s.saves.head?,
    sv.forShutdown = false ∧ (sv.reported = true → AllTook sv)
  answered : s.shutdown = some (.ok ()) → ∃ sv, s.saves.head? = some sv ∧ AllTook sv

/-- A save that makes progress keeps the invariant, provided the newest save
still finds what it has written. -/
theorem advance {key : Option (List UInt8)} {s : System} (h : Invariant key s) (i : ℕ)
    (sv sv' : Save) (files' : Directory) (hi : s.saves[i]? = some sv) (hp : Progress sv sv')
    (hk : files' .key = key)
    (hw : ∀ newest ∈ (s.saves.set i sv').head?, Written files' newest) :
    Invariant key { s with saves := s.saves.set i sv', files := files' } := by
  have hmem := List.mem_of_getElem? hi
  have hwaiting : waiting sv' = waiting sv := by
    unfold waiting
    rw [hp.forShutdown,hp.reported]
  constructor
  · exact forall_set s.saves i sv' h.good (hp.good (h.good sv hmem))
  · show s.manager.pendingInternalSaveStateCalls = (s.saves.set i sv').countP waiting
    rw [countP_kept _ _ _ _ _ hi hwaiting]
    exact h.counted
  · apply forall_head_set s.saves i sv sv' hi h.current
    intro _ hhead
    rw [hp.saved,hp.clock]
    exact h.current sv hhead
  · exact hw
  · exact hk
  · intro hc
    obtain ⟨h1,h2,h3⟩ := h.live hc
    exact ⟨h1,h2,forall_set s.saves i sv' h3 (hp.forShutdown.trans (h3 sv hmem))⟩
  · exact forall_tail_set s.saves i sv sv' hi h.tail hp.forShutdown.trans
  · intro hc
    apply forall_head_set s.saves i sv sv' hi (h.waits hc)
    intro _ hhead
    obtain ⟨h1,h2⟩ := h.waits hc sv hhead
    exact ⟨hp.forShutdown.trans h1,fun hr => hp.allTook (h2 (hp.reported.symm.trans hr))⟩
  · exact fun hd => exists_head_set s.saves i sv sv' hi (h.answered hd) hp.allTook

theorem takeEffect_written {key : Option (List UInt8)} {s : System} (h : Invariant key s)
    (i : ℕ) (f : SaveFile) (sv sv' : Save) (files' : Directory) (hi : s.saves[i]? = some sv)
    (ho : Orderly s (.takeEffect i f)) (hs : sv.takeEffect f s.files = some (sv',files')) :
    ∀ newest ∈ (s.saves.set i sv').head?, Written files' newest := by
  rcases takeEffect_some sv sv' f s.files files' hs with ⟨-,rfl,rfl⟩
  have hrun := run_succeeded (saveOp sv.saved f) s.files
  rw [saveOp_file] at hrun
  intro newest hn g hg
  rw [head_set s.saves i sv _ hi] at hn
  by_cases hgf : g = f
  · subst hgf
    rw [hrun.2.1]
    split_ifs at hn with h0
    · cases hn
      rfl
    · have hsame := ho.resolve_left h0 sv hi newest hn hg
      exact hsame
  · rw [hrun.2.2 _ (fun hh => hgf (SaveFile.file_injective hh))]
    split_ifs at hn with h0
    · cases hn
      subst h0
      apply h.written sv (head_of_getElem _ _ hi) g
      rwa [setStatus_other _ _ _ _ hgf] at hg
    · exact h.written newest hn g hg

theorem saveOp_not_key (s : SavedState) (f : SaveFile) : StateFile.key ≠ (saveOp s f).file := by
  rw [saveOp_file]
  cases f <;> decide

theorem takeEffect_invariant {key : Option (List UInt8)} {s s' : System} (h : Invariant key s)
    (hmac : Hmac) (i : ℕ) (f : SaveFile) (ho : Orderly s (.takeEffect i f))
    (hs : step hmac s (.takeEffect i f) = some s') : Invariant key s' := by
  simp only [step,bind,Option.bind_eq_some_iff] at hs
  rcases hs with ⟨sv,hi,⟨sv',files'⟩,he,⟨⟩⟩
  have hp := takeEffect_progress sv sv' f s.files files'
    (h.good sv (List.mem_of_getElem? hi)).1 he
  apply advance h i sv sv' files' hi hp
  · rcases takeEffect_some sv sv' f s.files files' he with ⟨-,rfl,-⟩
    rw [(run_succeeded (saveOp sv.saved f) s.files).2.2 _ (saveOp_not_key sv.saved f)]
    exact h.key
  · exact takeEffect_written h i f sv sv' files' hi ho he

theorem settle {key : Option (List UInt8)} {s : System} (h : Invariant key s) (i : ℕ)
    (sv sv' : Save) (hi : s.saves[i]? = some sv) (hp : Progress sv sv')
    (ht : ∀ g, (sv'.status g).took (saveOp sv.saved g) = true →
      (sv.status g).took (saveOp sv.saved g) = true) :
    Invariant key { s with saves := s.saves.set i sv' } := by
  apply advance h i sv sv' s.files hi hp h.key
  apply forall_head_set s.saves i sv sv' hi h.written
  intro _ hhead g hg
  rw [hp.saved] at hg ⊢
  exact h.written sv hhead g (ht g hg)

theorem fail_invariant {key : Option (List UInt8)} {s s' : System} (h : Invariant key s)
    (hmac : Hmac) (i : ℕ) (f : SaveFile) (error : GIOError)
    (hs : step hmac s (.fail i f error) = some s') : Invariant key s' := by
  simp only [step,bind,Option.bind_eq_some_iff] at hs
  rcases hs with ⟨sv,hi,sv',he,⟨⟩⟩
  have hp := fail_progress sv sv' f error (h.good sv (List.mem_of_getElem? hi)).1 he
  exact settle h i sv sv' hi hp.1 hp.2

theorem opCb_invariant {key : Option (List UInt8)} {s s' : System} (h : Invariant key s)
    (hmac : Hmac) (i : ℕ) (f : SaveFile) (hs : step hmac s (.opCb i f) = some s') :
    Invariant key s' := by
  simp only [step,bind,Option.bind_eq_some_iff] at hs
  rcases hs with ⟨sv,hi,sv',he,⟨⟩⟩
  have hp := opCb_progress sv sv' f (h.good sv (List.mem_of_getElem? hi)).1 he
  exact settle h i sv sv' hi hp.1 hp.2

theorem started_good {key : Option (List UInt8)} {s : System} (h : Invariant key s)
    (saved : SavedState) (clock : EpgClock) (forShutdown : Bool) :
    ∀ sv ∈ saveStateAsync saved clock false forShutdown::s.saves, SaveGood sv := by
  exact List.forall_mem_cons.mpr ⟨⟨saveStateAsync_ok _ _ _ _,nofun⟩,h.good⟩

theorem started_written (files : Directory) (saved : SavedState) (clock : EpgClock)
    (forShutdown : Bool) : ∀ sv ∈ some (saveStateAsync saved clock false forShutdown),
      Written files sv := by
  intro sv hsv f hf
  cases hsv
  cases hf

theorem serve_invariant {key : Option (List UInt8)} {s : System} (h : Invariant key s)
    (hc : s.manager.cancelled = false) (out : Outcome) (ho : Serves s.clock s.manager out) :
    Invariant key (serve s out) := by
  rcases h.live hc with ⟨hps,hsd,hfs⟩
  rcases ho.saves with ⟨hnone,hp,hsave⟩ | ⟨hone,hp⟩
  · have hs : serve s out = { s with manager := out.1 } := by
      rw [serve,hnone]
      rfl
    rw [hs]
    constructor
    · exact h.good
    · exact hp.trans h.counted
    · intro sv hsv
      rw [h.current sv hsv]
      exact (hsave _).symm
    · exact h.written
    · exact h.key
    · intro _
      exact ⟨ho.pendingShutdown.trans hps,hsd,hfs⟩
    · exact h.tail
    · intro hh
      exact h.waits (ho.pendingShutdown ▸ hh)
    · exact h.answered
  · have hs : serve s out = { s with
        manager := out.1
        saves := saveStateAsync (saveState out.1 s.clock) s.clock false false::s.saves } := by
      rw [serve,hone]
      rfl
    rw [hs]
    constructor
    · exact started_good h _ _ _
    · show out.1.pendingInternalSaveStateCalls = _
      rw [hp,h.counted,List.countP_cons_of_pos rfl]
    · intro sv hsv
      cases hsv
      rfl
    · exact started_written _ _ _ _
    · exact h.key
    · intro _
      refine ⟨ho.pendingShutdown.trans hps,hsd,fun sv hsv => ?_⟩
      rcases List.mem_cons.mp hsv with rfl | hh
      · rfl
      · exact hfs sv hh
    · exact hfs
    · intro hh
      exact absurd (ho.pendingShutdown.trans hps) hh
    · intro hh
      rw [hsd] at hh
      cases hh

theorem startShutdown_invariant {key : Option (List UInt8)} {s : System} (h : Invariant key s)
    (hc : s.manager.cancelled = false) (ho : Orderly s .shutdown) :
    Invariant key (startShutdown s) := by
  rcases h.live hc with ⟨hps,hsd,hfs⟩
  by_cases hp : s.manager.pendingInternalSaveStateCalls = 0
  · have hs : startShutdown s = { s with
        manager := { s.manager with cancelled := true }
        saves := saveStateAsync (saveState s.manager s.clock) s.clock false true::s.saves } := by
      simp [startShutdown,shutdownAsync,hc,hp]
    rw [hs]
    constructor
    · exact started_good h _ _ _
    · exact h.counted
    · intro sv hsv
      cases hsv
      rfl
    · exact started_written _ _ _ _
    · exact h.key
    · intro hh
      cases hh
    · exact hfs
    · intro hh
      exact absurd hps hh
    · intro hh
      rw [hsd] at hh
      cases hh
  · have hs : startShutdown s = { s with
        manager := { s.manager with cancelled := true, pendingShutdown := some shutdownTask } } := by
      simp [startShutdown,shutdownAsync,hc,hp]
    rw [hs]
    constructor
    · exact h.good
    · exact h.counted
    · exact h.current
    · exact h.written
    · exact h.key
    · intro hh
      cases hh
    · exact h.tail
    · intro _ newest hn
      have hmem := List.mem_of_mem_head? hn
      have hgood := ho.resolve_left hp newest hn
      exact ⟨hfs newest hmem,fun hr =>
        ((h.good newest hmem).2 hr).resolve_left (by simp [hgood hr])⟩
    · exact h.answered

theorem mark_reported {key : Option (List UInt8)} {s : System} (h : Invariant key s) (i : ℕ)
    (sv : Save) (r : Except GIOError Unit) (hi : s.saves[i]? = some sv)
    (hr : sv.result = some r) :
    (∀ o ∈ s.saves.set i { sv with reported := true }, SaveGood o) ∧
      (∀ o ∈ (s.saves.set i { sv with reported := true }).head?,
        o.saved = saveState s.manager o.clock ∧ Written s.files o) ∧
      ∀ o ∈ (s.saves.set i { sv with reported := true }).tail, o.forShutdown = false := by
  have hmem := List.mem_of_getElem? hi
  constructor
  · exact forall_set s.saves i _ h.good (reported_good sv (h.good sv hmem).1 r hr)
  constructor
  · refine forall_head_set s.saves i sv _ hi (fun o ho => ⟨h.current o ho,h.written o ho⟩) ?_
    exact fun _ hhead => ⟨h.current sv hhead,h.written sv hhead⟩
  · exact forall_tail_set s.saves i sv _ hi h.tail id

theorem allTook_head {s : System} (i : ℕ) (sv : Save) (hi : s.saves[i]? = some sv)
    (h : ∃ o, s.saves.head? = some o ∧ AllTook o) :
    ∃ o, (s.saves.set i { sv with reported := true }).head? = some o ∧ AllTook o :=
  exists_head_set s.saves i sv _ hi h id

theorem shutdownSaveCb_invariant {key : Option (List UInt8)} {s : System}
    (h : Invariant key s) (i : ℕ) (sv : Save) (r : Except GIOError Unit)
    (hi : s.saves[i]? = some sv) (hr : sv.result = some r) (hf : sv.forShutdown = true) :
    Invariant key (report s i sv r) := by
  have hs : report s i sv r =
      { s with saves := s.saves.set i { sv with reported := true }, shutdown := some r } := by
    rw [report,if_pos hf]
  have h0 : i = 0 := by
    by_contra hh
    have := h.tail sv (mem_tail_of_getElem _ _ _ hi hh)
    rw [hf] at this
    cases this
  have hhead : s.saves.head? = some sv := head_of_getElem _ _ (h0 ▸ hi)
  rcases mark_reported h i sv r hi hr with ⟨hgood,hcurrent,htail⟩
  rw [hs]
  constructor
  · exact hgood
  · have hw : waiting { sv with reported := true } = waiting sv := by simp [waiting,hf]
    show s.manager.pendingInternalSaveStateCalls = _
    rw [countP_kept _ _ _ _ _ hi hw]
    exact h.counted
  · exact fun o ho => (hcurrent o ho).1
  · exact fun o ho => (hcurrent o ho).2
  · exact h.key
  · intro hc
    have := (h.live hc).2.2 sv (List.mem_of_getElem? hi)
    rw [hf] at this
    cases this
  · exact htail
  · intro hp
    have := (h.waits hp sv hhead).1
    rw [hf] at this
    cases this
  · intro hh
    cases hh
    exact allTook_head i sv hi
      ⟨sv,hhead,result_ok sv (h.good sv (List.mem_of_getElem? hi)).1 hr⟩

/-- Once a waiting shutdown has no more callbacks to wait for, the newest save
is done, or its own callback brings the answer. -/
theorem last_allTook {key : Option (List UInt8)} {s : System} (h : Invariant key s) (i : ℕ)
    (sv : Save) (hi : s.saves[i]? = some sv) (hr : sv.result = some (.ok ()))
    (hp : s.manager.pendingShutdown ≠ none)
    (hz : (s.saves.set i { sv with reported := true }).countP waiting = 0) :
    ∃ o, s.saves.head? = some o ∧ AllTook o := by
  by_cases h0 : i = 0
  · subst h0
    exact ⟨sv,head_of_getElem _ _ hi,result_ok sv (h.good sv (List.mem_of_getElem? hi)).1 hr⟩
  · cases hl : s.saves with
    | nil => simp [hl] at hi
    | cons newest rest =>
      have hhead : s.saves.head? = some newest := by rw [hl]; rfl
      have hkeep : (s.saves.set i { sv with reported := true }).head? = some newest := by
        rw [head_set _ _ _ _ hi,if_neg h0,hhead]
      have hwait := List.countP_eq_zero.mp hz newest (List.mem_of_mem_head? hkeep)
      rcases h.waits hp newest hhead with ⟨hfs,hdone⟩
      have hrep : newest.reported = true := by simpa [waiting,hfs] using hwait
      exact ⟨newest,rfl,hdone hrep⟩

theorem internalSaveCb_invariant {key : Option (List UInt8)} {s : System}
    (h : Invariant key s) (i : ℕ) (sv : Save) (r : Except GIOError Unit)
    (hi : s.saves[i]? = some sv) (hr : sv.result = some r) (hn : sv.reported = false)
    (hf : sv.forShutdown = false) (ho : Orderly s (.saveCb i)) :
    Invariant key (report s i sv r) := by
  have hw : waiting sv = true := by simp [waiting,hf,hn]
  have hw' : waiting { sv with reported := true } = false := by simp [waiting]
  have hcount := countP_exchange s.saves i sv { sv with reported := true } waiting hi
  rw [hw,hw',if_pos rfl,if_neg Bool.false_ne_true,← h.counted] at hcount
  have hpos : 0 < s.manager.pendingInternalSaveStateCalls := by omega
  have hleft : (s.saves.set i { sv with reported := true }).countP waiting =
      s.manager.pendingInternalSaveStateCalls-1 := by omega
  rcases mark_reported h i sv r hi hr with ⟨hgood,hcurrent,htail⟩
  by_cases hl : s.manager.pendingInternalSaveStateCalls-1 = 0 ∧ s.manager.pendingShutdown ≠ none
  · have hs : report s i sv r = { s with
        saves := s.saves.set i { sv with reported := true }
        manager := { s.manager with
          pendingInternalSaveStateCalls := s.manager.pendingInternalSaveStateCalls-1
          pendingShutdown := none }
        shutdown := some r } := by
      simp [report,internalSaveStateCb,hf,hpos,hl]
    rw [hs]
    constructor
    · exact hgood
    · exact hleft.symm
    · exact fun o ho => (hcurrent o ho).1
    · exact fun o ho => (hcurrent o ho).2
    · exact h.key
    · intro hc
      exact absurd (h.live hc).1 hl.2
    · exact htail
    · intro hp
      exact absurd rfl hp
    · intro hh
      cases hh
      exact allTook_head i sv hi (last_allTook h i sv hi hr hl.2 (hleft.trans hl.1))
  · have hs : report s i sv r = { s with
        saves := s.saves.set i { sv with reported := true }
        manager := { s.manager with
          pendingInternalSaveStateCalls := s.manager.pendingInternalSaveStateCalls-1 } } := by
      simp only [report,internalSaveStateCb,hf,hpos,if_true]
      rw [if_neg hl]
      rfl
    rw [hs]
    constructor
    · exact hgood
    · exact hleft.symm
    · exact fun o ho => (hcurrent o ho).1
    · exact fun o ho => (hcurrent o ho).2
    · exact h.key
    · intro hc
      rcases h.live hc with ⟨hps,hsd,hfs⟩
      exact ⟨hps,hsd,forall_set s.saves i _ hfs hf⟩
    · exact htail
    · intro hp
      have hmore : 1 < s.manager.pendingInternalSaveStateCalls := by
        have : s.manager.pendingInternalSaveStateCalls-1 ≠ 0 := fun hz => hl ⟨hz,hp⟩
        omega
      apply forall_head_set s.saves i sv _ hi (h.waits hp)
      intro h0 hhead
      have hnone := ho h0 hp hmore sv hhead
      refine ⟨hf,fun _ => ?_⟩
      exact (result_good sv (h.good sv (List.mem_of_getElem? hi)).1 r hr).resolve_left
        (by simp [hnone])
    · intro hh
      exact allTook_head i sv hi (h.answered hh)

theorem step_invariant {key : Option (List UInt8)} (hmac : Hmac) (s : System) (op : Operation)
    (s' : System) (h : Invariant key s) (ho : Orderly s op) (hs : step hmac s op = some s') :
    Invariant key s' := by
  cases op with
  | addCode codeStr =>
    simp only [step] at hs
    split_ifs at hs with hc
    cases hs
    exact serve_invariant h (by simpa using hc) _ (addCode_serves hmac _ _ _)
  | clearCode =>
    simp only [step] at hs
    split_ifs at hs with hc
    cases hs
    exact serve_invariant h (by simpa using hc) _ (clearCode_serves _ _)
  | wallclockTimeChanged delta =>
    simp only [step] at hs
    split_ifs at hs with hc
    cases hs
    exact serve_invariant h (by simpa using hc) _ (wallclockTimeChanged_serves _ _ _)
  | timePasses clock =>
    simp only [step] at hs
    split_ifs at hs
    cases hs
    exact ⟨h.good,h.counted,h.current,h.written,h.key,h.live,h.tail,h.waits,h.answered⟩
  | shutdown =>
    simp only [step] at hs
    split_ifs at hs with hc
    cases hs
    exact startShutdown_invariant h (by simpa using hc) ho
  | takeEffect i f => exact takeEffect_invariant h hmac i f ho hs
  | fail i f error => exact fail_invariant h hmac i f error hs
  | opCb i f => exact opCb_invariant h hmac i f hs
  | saveCb i =>
    simp only [step,bind,Option.bind_eq_some_iff] at hs
    rcases hs with ⟨sv,hi,r,hr,hs⟩
    split_ifs at hs with hn
    cases hs
    have hn' : sv.reported = false := by simpa using hn
    cases hf : sv.forShutdown with
    | true => exact shutdownSaveCb_invariant h i sv r hi hr hf
    | false => exact internalSaveCb_invariant h i sv r hi hr hn' hf ho

structure AtRest (m : EpgManager) : Prop where
  cancelled : m.cancelled = false
  pending : m.pendingInternalSaveStateCalls = 0
  pendingShutdown : m.pendingShutdown = none

theorem quiet_invariant (self : EpgManager) (clock : EpgClock) (files : Directory)
    (h : AtRest self) : Invariant (files .key) (quiet self clock files) :=
  ⟨nofun,h.pending,nofun,nofun,rfl,fun _ => ⟨h.pendingShutdown,rfl,nofun⟩,nofun,
    fun _ => nofun,nofun⟩

/-- Once shutdown has answered with success, the files are those of the newest
save, and it holds what the manager is left with. -/
theorem answered_holds {key : Option (List UInt8)} {s : System} (h : Invariant key s)
    (hd : s.shutdown = some (.ok ())) :
    ∃ sv, s.saves.head? = some sv ∧ Holds s.files sv.saved ∧
      sv.saved = saveState s.manager sv.clock := by
  rcases h.answered hd with ⟨sv,hsv,ht⟩
  have hfiles : Holds s.files sv.saved :=
    (holds_iff _ _).mpr fun f => h.written sv hsv f (ht f)
  exact ⟨sv,hsv,hfiles,h.current sv hsv⟩

theorem worth_same_clock (self : EpgManager) (clock : EpgClock)
    (hs : clock.sourceNewSeconds = true) (hb : ¬ Bogus (remaining self clock.time)) :
    worth clock (creditOnLoad (saveState self clock).clockTime
      (saveState self clock).expirySeconds clock.wallclockTime) = remaining self clock.time := by
  have ht := word_lt self.expiryTimeSecs
  have hr : remaining self clock.time = self.expiryTimeSecs.toNat-clock.time.toNat := rfl
  have hx := saveState_expirySeconds self clock
  have hc : (creditOnLoad (saveState self clock).clockTime
      (saveState self clock).expirySeconds clock.wallclockTime).toNat =
      remaining self clock.time := by
    rw [creditOnLoad_toNat,hx]
    show creditLeft clock.wallclockTime.toNat _ _ = _
    unfold creditLeft
    rw [Nat.sub_self,Nat.sub_zero,if_neg (fun hh => hb hh.2)]
  unfold worth
  rw [expiryAfter_of_source _ _ _ hs,saturatingAdd_toNat,hc]
  omega

/-- In every orderly run, once shutdown has returned TRUE the files are
exactly those of the save started last. Loaded at the clock readings of that
save they give back the used codes, and the credit unless loading resets it. -/
theorem durable_shutdown (hmac : Hmac) (self : EpgManager) (clock : EpgClock)
    (files : Directory) (key : List UInt8) (ops : List Operation) (s : System)
    (hself : AtRest self) (hk : files .key = some key)
    (ho : Along (step hmac) Orderly ops (quiet self clock files))
    (hr : run (step hmac) ops (quiet self clock files) = some s)
    (hd : s.shutdown = some (.ok ())) :
    ∃ sv, s.saves.head? = some sv ∧ Holds s.files sv.saved ∧
      sv.saved = saveState s.manager sv.clock ∧
      ∃ credit, seen ⟨sv.clock.time, sv.clock.wallclockTime, true⟩ s.files =
          some (s.manager.usedCodes,credit) ∧
        (¬ Bogus (remaining s.manager sv.clock.time) →
          credit = remaining s.manager sv.clock.time) := by
  have hinv : Invariant (files .key) s :=
    run_invariant_along (fun a op b hi hp hs => step_invariant hmac a op b hi hp hs)
      (quiet_invariant self clock files hself) ho hr
  rcases answered_holds hinv hd with ⟨sv,hsv,hfiles,hsave⟩
  have hseen := seen_saved ⟨sv.clock.time, sv.clock.wallclockTime, true⟩ s.files sv.saved key
    hfiles (hinv.key.trans hk)
  rw [hsave] at hseen
  exact ⟨sv,hsv,hfiles,hsave,_,hseen,fun hb =>
    worth_same_clock s.manager ⟨sv.clock.time, sv.clock.wallclockTime, true⟩ rfl hb⟩

instance (s : System) (op : Operation) : Decidable (Orderly s op) :=
  match op with
  | .takeEffect _ _ => inferInstanceAs (Decidable (_ ∨ ∀ sv ∈ _, ∀ newest ∈ _, _ → _))
  | .shutdown => inferInstanceAs (Decidable (_ ∨ ∀ newest ∈ _, _ → _))
  | .saveCb _ => inferInstanceAs (Decidable (_ → _ → _ → ∀ newest ∈ _, _))
  | .addCode _ => isTrue trivial
  | .clearCode => isTrue trivial
  | .wallclockTimeChanged _ => isTrue trivial
  | .timePasses _ => isTrue trivial
  | .fail _ _ _ => isTrue trivial
  | .opCb _ _ => isTrue trivial

def paid : EpgManager :=
  { freshManager with usedCodes := gArraySort [⟨1, .period1Day⟩], expiryTimeSecs := 86500 }

def bootClock : EpgClock := ⟨100, 5000, true⟩

def paidFiles : Directory := directoryOf (saveState paid bootClock) (List.replicate 64 0)

def overlapping : List Operation :=
  [.wallclockTimeChanged 3600, .clearCode, .shutdown]

def effects (i : ℕ) : List Operation := SaveFile.all.map (Operation.takeEffect i)

def callbacks (i : ℕ) : List Operation := SaveFile.all.map (Operation.opCb i) ++ [.saveCb i]

theorem durable_shutdown_example :
    ∃ s, run (step zeroHmac) (overlapping ++ effects 1 ++ effects 0 ++ callbacks 0 ++ callbacks 1)
        (quiet paid bootClock paidFiles) = some s ∧
      ∃ sv, s.saves.head? = some sv ∧ Holds s.files sv.saved ∧
        sv.saved = saveState s.manager sv.clock ∧
        ∃ credit, seen ⟨sv.clock.time, sv.clock.wallclockTime, true⟩ s.files =
            some (s.manager.usedCodes,credit) ∧
          (¬ Bogus (remaining s.manager sv.clock.time) →
            credit = remaining s.manager sv.clock.time) := by
  have h : ((run (step zeroHmac)
      (overlapping ++ effects 1 ++ effects 0 ++ callbacks 0 ++ callbacks 1)
      (quiet paid bootClock paidFiles)).any (fun s => s.shutdown = some (.ok ()))) = true := by
    decide +kernel
  rcases (Option.any_eq_true _ _).mp h with ⟨s,hs,hd⟩
  exact ⟨s,hs,durable_shutdown zeroHmac paid bootClock paidFiles (List.replicate 64 0) _ s
    ⟨rfl,rfl,rfl⟩ rfl (by decide +kernel) hs (of_decide_eq_true hd)⟩

/-- When the operations of the first save take effect after those of the
second, shutdown returns TRUE and the cleared credit comes back on load. -/
theorem older_save_wins :
    ¬ ∀ (ops : List Operation) (s : System),
      run (step zeroHmac) ops (quiet paid bootClock paidFiles) = some s →
      s.shutdown = some (.ok ()) →
      (∃ sv, s.saves.head? = some sv ∧ Holds s.files sv.saved) ∧
        seen bootClock s.files = some (s.manager.usedCodes,remaining s.manager 100) := by
  intro h
  have hf : ((run (step zeroHmac)
      (overlapping ++ effects 0 ++ effects 1 ++ callbacks 0 ++ callbacks 1)
      (quiet paid bootClock paidFiles)).any (fun s => s.shutdown = some (.ok ()) ∧
        seen bootClock s.files ≠ some (s.manager.usedCodes,remaining s.manager 100))) = true := by
    decide +kernel
  rcases (Option.any_eq_true _ _).mp hf with ⟨s,hs,hd⟩
  have hd := of_decide_eq_true hd
  exact hd.2 (h _ s hs hd.1).2

end EosPayg.ShutdownDurability
