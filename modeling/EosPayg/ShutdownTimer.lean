import EosPayg.ManagerService

/-!
# The id of the shutdown timer

One callback starts the timer and keeps its id, another removes it and clears
the id, and the timer itself goes away when it fires. It is given no pointer to
the id, so after that the id is of no source.
-/

set_option autoImplicit false

namespace EosPayg.ShutdownTimer
open EosPayg.ManagerState EosPayg.GuardedRun EosPayg.ManagerService

/-- What the user data points to afterwards, if there is any, and whether the
source is kept; the result of the power-off request is ignored. -/
def paygSystemPoweroff (userData : Option ℕ) : Option ℕ × Bool :=
  (userData.map (fun _ => 0), false)

/-- `expired_cb` attaches the timer with no user data. -/
def timerFires (self : EpgManagerService) (id : ℕ) : EpgManagerService :=
  let out := paygSystemPoweroff none
  { self with
    shutdownTimerId := out.1.getD self.shutdownTimerId
    timers := if out.2 then self.timers else self.timers.erase id }

inductive Operation where
  | expired
  | notifyExpiryTime (seen : Published) (currentTime : UInt64)
  | otherSource
  | fire (id : ℕ)
  deriving DecidableEq

/-- Sources of the rest of the process take their ids from the same counter. -/
def step (s : EpgManagerService) : Operation → Option EpgManagerService
  | .expired => some (expiredCb s)
  | .notifyExpiryTime seen currentTime => some (notifyExpiryTimeCb s seen currentTime)
  | .otherSource => some { s with lastSourceId := s.lastSourceId+1 }
  | .fire id => if id ∈ s.timers then some (timerFires s id) else none

/-- The id is zero exactly when it is of no attached timer. -/
def LiveId (s : EpgManagerService) : Prop := s.shutdownTimerId ≠ 0 ↔ s.shutdownTimerId ∈ s.timers

instance (s : EpgManagerService) : Decidable (LiveId s) := inferInstanceAs (Decidable (_ ↔ _))

def Fires : Operation → Prop
  | .fire _ => True
  | _ => False

/-- A countdown that is declined is one that runs, and an id that is removed is
of an attached timer. -/
def Justified (s : EpgManagerService) : Operation → Prop
  | .expired => (expiredCb s).timers = s.timers → s.shutdownTimerId ∈ s.timers
  | .notifyExpiryTime seen currentTime =>
    s.shutdownTimerId ≠ 0 ∧ (notifyExpiryTimeCb s seen currentTime).shutdownTimerId = 0 →
      s.shutdownTimerId ∈ s.timers
  | _ => True

def Tracked (s : EpgManagerService) : Prop :=
  s.timers = [] ∨ (s.timers = [s.shutdownTimerId] ∧ s.shutdownTimerId ≠ 0)

theorem live_iff {s : EpgManagerService} (h : Tracked s) :
    LiveId s ↔ (s.shutdownTimerId = 0 ↔ s.timers = []) := by
  unfold LiveId
  rcases h with ht | ⟨ht,hz⟩
  · simp [ht]
  · simp [ht,hz]

theorem expiredCb_declines {s : EpgManagerService} (hz : s.shutdownTimerId ≠ 0) :
    (expiredCb s).shutdownTimerId = s.shutdownTimerId ∧ (expiredCb s).timers = s.timers := by
  unfold expiredCb
  rw [if_pos hz]
  exact ⟨rfl,rfl⟩

theorem expiredCb_starts {s : EpgManagerService} (hz : s.shutdownTimerId = 0) :
    (expiredCb s).shutdownTimerId = s.lastSourceId+1 ∧
      (expiredCb s).timers = (s.lastSourceId+1)::s.timers := by
  unfold expiredCb
  rw [if_neg (fun h => h hz)]
  exact ⟨rfl,rfl⟩

theorem notifyExpiryTimeCb_cases (s : EpgManagerService) (seen : Published)
    (currentTime : UInt64) :
    notifyExpiryTimeCb s seen currentTime = s ∨
      (s.shutdownTimerId ≠ 0 ∧ (notifyExpiryTimeCb s seen currentTime).shutdownTimerId = 0 ∧
        (notifyExpiryTimeCb s seen currentTime).timers = s.timers.erase s.shutdownTimerId) := by
  unfold notifyExpiryTimeCb
  by_cases hz : s.shutdownTimerId = 0
  · rw [if_pos hz]
    exact Or.inl rfl
  · rw [if_neg hz]
    by_cases hc : seen.expiryTime = 0 ∨ seen.expiryTime > currentTime
    · rw [if_pos hc]
      exact Or.inr ⟨hz,rfl,rfl⟩
    · rw [if_neg hc]
      exact Or.inl rfl

theorem erase_tracked {s : EpgManagerService} (h : Tracked s) :
    s.timers.erase s.shutdownTimerId = [] := by
  rcases h with ht | ⟨ht,-⟩
  · rw [ht]
    rfl
  · rw [ht,List.erase_cons_head]

theorem timerFires_tracked {s : EpgManagerService} {id : ℕ} (h : Tracked s)
    (hid : id ∈ s.timers) :
    s.shutdownTimerId ≠ 0 ∧ (timerFires s id).shutdownTimerId = s.shutdownTimerId ∧
      (timerFires s id).timers = [] := by
  rcases h with ht | ⟨ht,hz⟩
  · rw [ht] at hid
    cases hid
  · have he : id = s.shutdownTimerId := by simpa [ht] using hid
    refine ⟨hz,rfl,?_⟩
    show s.timers.erase id = []
    rw [ht,he,List.erase_cons_head]

theorem step_tracked (s : EpgManagerService) (op : Operation) (s' : EpgManagerService)
    (h : Tracked s) (hs : step s op = some s') : Tracked s' := by
  cases op with
  | expired =>
    cases hs
    by_cases hz : s.shutdownTimerId = 0
    · obtain ⟨hid,ht⟩ := expiredCb_starts hz
      have hnil : s.timers = [] := h.resolve_right (fun hh => hh.2 hz)
      right
      rw [hid,ht,hnil]
      exact ⟨rfl,Nat.succ_ne_zero _⟩
    · obtain ⟨hid,ht⟩ := expiredCb_declines hz
      rw [Tracked,hid,ht]
      exact h
  | notifyExpiryTime seen currentTime =>
    cases hs
    rcases notifyExpiryTimeCb_cases s seen currentTime with he | ⟨-,-,ht⟩
    · rw [he]
      exact h
    · left
      rw [ht,erase_tracked h]
  | otherSource =>
    cases hs
    exact h
  | fire id =>
    simp only [step] at hs
    split_ifs at hs with hid
    cases hs
    exact Or.inl (timerFires_tracked h hid).2.2

theorem step_live_iff (s : EpgManagerService) (op : Operation) (s' : EpgManagerService)
    (h : Tracked s) (hl : LiveId s) (hs : step s op = some s') : LiveId s' ↔ ¬Fires op := by
  rw [live_iff (step_tracked s op s' h hs)]
  have hlive := (live_iff h).mp hl
  cases op with
  | expired =>
    cases hs
    refine iff_of_true ?_ id
    by_cases hz : s.shutdownTimerId = 0
    · obtain ⟨hid,ht⟩ := expiredCb_starts hz
      rw [hid,ht]
      exact iff_of_false (Nat.succ_ne_zero _) (List.cons_ne_nil _ _)
    · obtain ⟨hid,ht⟩ := expiredCb_declines hz
      rw [hid,ht]
      exact hlive
  | notifyExpiryTime seen currentTime =>
    cases hs
    refine iff_of_true ?_ id
    rcases notifyExpiryTimeCb_cases s seen currentTime with he | ⟨-,hid,ht⟩
    · rw [he]
      exact hlive
    · exact iff_of_true hid (ht.trans (erase_tracked h))
  | otherSource =>
    cases hs
    exact iff_of_true hlive id
  | fire id =>
    simp only [step] at hs
    split_ifs at hs with hid
    cases hs
    obtain ⟨hz,hkept,ht⟩ := timerFires_tracked h hid
    refine iff_of_false (fun hh => hz ?_) (fun hn => hn trivial)
    rw [← hkept]
    exact hh.mpr ht

theorem live_justified {s : EpgManagerService} (hl : LiveId s) (op : Operation) :
    Justified s op := by
  cases op with
  | expired =>
    intro hdeclined
    apply hl.mp
    intro hz
    rw [(expiredCb_starts hz).2] at hdeclined
    exact absurd hdeclined (List.cons_ne_self _ _)
  | notifyExpiryTime seen currentTime => exact fun h => hl.mp h.1
  | otherSource => trivial
  | fire id => trivial

/-- For every run of the service: the id is of an attached timer, or zero, in
every state exactly when the timer never fires in it; and while it is, every
countdown that is declined runs already and every id that is removed is of an
attached timer. -/
theorem live_id_iff (ops : List Operation) (s : EpgManagerService)
    (hr : run step ops epgManagerServiceInit = some s) :
    (Stays step LiveId ops epgManagerServiceInit ↔ ∀ op ∈ ops, ¬Fires op) ∧
      (Stays step LiveId ops epgManagerServiceInit →
        Along step Justified ops epgManagerServiceInit) := by
  have hinit : LiveId epgManagerServiceInit := by decide
  constructor
  · rw [← along_iff_forall hr]
    exact stays_iff_along_of_invariant step_tracked step_live_iff (Or.inl rfl) hinit hr
  · exact stays_along (fun s op hl => live_justified hl op)

theorem live_id_iff_credit :
    Stays step LiveId [.expired, .notifyExpiryTime ⟨60, 0⟩ 30, .expired]
      epgManagerServiceInit := by
  apply (live_id_iff _ _ rfl).1.mpr
  intro op hop hf
  cases op with
  | fire id => simp at hop
  | _ => exact hf

/-- The timer fires to no effect: later the end of the credit starts no
countdown, and once there is credit the id of no source is removed. -/
theorem fired_timer_keeps_id :
    ∃ s, run step [.expired, .fire 1] epgManagerServiceInit = some s ∧
      s.shutdownTimerId = 1 ∧ s.timers = [] ∧ ¬LiveId s ∧
      ¬Justified s .expired ∧ ¬Justified s (.notifyExpiryTime ⟨60, 0⟩ 30) := by
  refine ⟨_,rfl,rfl,rfl,by decide,?_,?_⟩
  · intro h
    exact absurd (h rfl) (List.not_mem_nil)
  · intro h
    exact absurd (h ⟨by decide,by decide⟩) (List.not_mem_nil)

end EosPayg.ShutdownTimer
