import EosPayg.Initialisation

/-!
# A manager from its construction on

The operations of a manager may be called at any time, also while it is being
initialised or shut down, and shutdown may be called again. Its saves are kept
with the oldest first, and of every call of shutdown the answers its task was
returned with.
-/

set_option autoImplicit false

namespace EosPayg.Lifecycle
open EosPayg.PaygCodes EosPayg.ManagerState EosPayg.ManagerCode EosPayg.ManagerFiles
  EosPayg.SaveQueue EosPayg.Shutdown EosPayg.Initialisation

inductive Answer where
  | refused (error : ProviderError)
  | saved (result : Except GIOError Unit)

/-- A call of shutdown: the returns of its task, and how many saves had been
started before. -/
structure Request where
  answers : List Answer
  earlier : ℕ

structure System where
  core : Initialisation.System
  requests : List Request

def constructed (enabled : Bool) (clock : EpgClock) (files : Directory) : System where
  core := initAsync (epgManagerInit enabled) clock files
  requests := []

inductive Operation where
  | core (op : Initialisation.Operation)
  | addCode (codeStr : List UInt8)
  | clearCode
  | wallclockTimeChanged (delta : Int64)
  | checkExpired
  | shutdown
  deriving DecidableEq

def serve (s : System) (out : Outcome) : System :=
  { s with core := performAll { s.core with manager := out.1 } out.2 }

/-- The task shutdown has stored, or handed to its own save, is that of the
first call. -/
def deliver (requests : List Request) (answer : Option Answer) : List Request :=
  match requests, answer with
  | first::rest, some a => { first with answers := first.answers++[a] }::rest
  | requests, _ => requests

def startShutdown (s : System) : System :=
  let out := shutdownAsync s.core.manager
  let earlier := s.core.saves.length
  match out.2 with
  | .refused error => { s with requests := s.requests++[⟨[.refused error], earlier⟩] }
  | .saves =>
    { s with
      core := { s.core with
        manager := out.1
        saves := s.core.saves++
          [saveStateAsync (saveState out.1 s.core.clock) s.core.clock false true] }
      requests := s.requests++[⟨[], earlier⟩] }
  | .waits =>
    { s with core := { s.core with manager := out.1 }, requests := s.requests++[⟨[], earlier⟩] }

def report (s : System) (i : ℕ) (sv : Save) (result : Except GIOError Unit) : System :=
  if sv.forShutdown then
    { s with
      core := setReported s.core i sv s.core.manager
      requests := deliver s.requests (some (.saved result)) }
  else
    { s with
      core := Initialisation.saveCb s.core i sv result
      requests := deliver s.requests
        ((internalSaveStateCb s.core.manager result).2.map Answer.saved) }

def step (hmac : Hmac) (s : System) : Operation → Option System
  | .core (.saveCb i) => do
    let sv ← s.core.saves[i]?
    let result ← sv.result
    if sv.reported then none else return report s i sv result
  | .core op => (Initialisation.step s.core op).map (fun core => { s with core := core })
  | .addCode codeStr => some (serve s (addCode hmac s.core.manager s.core.clock codeStr).2)
  | .clearCode => some (serve s (clearCode s.core.manager s.core.clock).2)
  | .wallclockTimeChanged delta =>
    some (serve s (wallclockTimeChanged s.core.manager s.core.clock delta))
  | .checkExpired =>
    some (serve s (s.core.manager, (checkExpiredCb s.core.manager s.core.clock).2))
  | .shutdown => some (startShutdown s)

def Effect.isSave : Effect → Bool
  | .save _ _ => true
  | _ => false

/-- An operation raises the pending count by the number of saves it starts, and
does not touch the shutdown. -/
structure Tallied (m : EpgManager) (out : Outcome) : Prop where
  pending : out.1.pendingInternalSaveStateCalls =
    m.pendingInternalSaveStateCalls+out.2.countP Effect.isSave
  cancelled : out.1.cancelled = m.cancelled
  pendingShutdown : out.1.pendingShutdown = m.pendingShutdown

theorem tallied_silent (m m' : EpgManager) (effects : List Effect)
    (he : effects.countP Effect.isSave = 0)
    (hp : m'.pendingInternalSaveStateCalls = m.pendingInternalSaveStateCalls)
    (hc : m'.cancelled = m.cancelled) (hs : m'.pendingShutdown = m.pendingShutdown) :
    Tallied m (m',effects) :=
  ⟨by rw [he]; exact hp,hc,hs⟩

theorem tallied_andThen {m : EpgManager} {first : Outcome} {next : EpgManager → Outcome}
    (h : Tallied m first) (h' : Tallied first.1 (next first.1)) :
    Tallied m (andThen first next) := by
  constructor
  · rw [andThen_state,andThen_effects,List.countP_append,h'.pending,h.pending,Nat.add_assoc]
  · exact h'.cancelled.trans h.cancelled
  · exact h'.pendingShutdown.trans h.pendingShutdown

theorem isSave_ofTimer (effects : List Effect) (h : effects.all Effect.ofTimer = true) :
    effects.countP Effect.isSave = 0 := by
  rw [List.countP_eq_zero]
  intro e he
  have ht := List.all_eq_true.mp h e he
  cases e <;> first | exact Bool.false_ne_true | cases ht

theorem setExpiryTime_tallied (self : EpgManager) (clock : EpgClock) (task save : Bool)
    (nowSecs spanSecs : UInt64) :
    Tallied self (setExpiryTime self clock task save nowSecs spanSecs) := by
  rcases setExpiryTime_effects self clock task save nowSecs spanSecs with ⟨before,hb,he⟩
  constructor
  · rw [he,setExpiryTime_state,List.countP_append,isSave_ofTimer before hb,Nat.zero_add]
    by_cases hc : self.expiryTimeSecs ≠ expiryAfter clock nowSecs spanSecs ∧ self.enabled = true
    · cases save
      · simp only [if_pos hc,Bool.false_eq_true,and_false,if_false]
        rfl
      · simp only [hc.1,hc.2,ne_eq,not_false_eq_true,and_self,if_true]
        cases task <;> rfl
    · rw [if_neg hc,if_neg (fun h => hc ⟨h.1,h.2.1⟩)]
      rfl
  · rw [setExpiryTime_state]
  · rw [setExpiryTime_state]

theorem invalidData_tallied (self : EpgManager) (file : StateFile) :
    Tallied self (invalidData self file) := tallied_silent _ _ _ rfl rfl rfl rfl

theorem loadFile_tallied (self : EpgManager) (clock : EpgClock) (file : StateFile)
    (data : Option (List UInt8)) : Tallied self (loadFile self clock file data).2 := by
  cases file with
  | clockTime =>
    simp only [loadFile,loadWallclockTime]
    split_ifs <;> exact tallied_silent _ _ _ rfl rfl rfl rfl
  | expiryTime =>
    simp only [loadFile,loadExpiryTime]
    split_ifs
    · exact setExpiryTime_tallied _ _ _ _ _ _
    · exact invalidData_tallied _ _
    all_goals
      have hs := setExpiryTime_tallied self clock true true clock.time
      dsimp only
      refine tallied_andThen (hs _) ?_
      exact tallied_silent _ _ _ rfl rfl rfl rfl
  | expirySeconds =>
    simp only [loadFile,loadExpirySeconds]
    split_ifs
    · exact setExpiryTime_tallied _ _ _ _ _ _
    · exact invalidData_tallied _ _
    · exact tallied_silent _ _ _ rfl rfl rfl rfl
  | usedCodes =>
    simp only [loadFile,loadUsedCodes]
    split
    · exact invalidData_tallied _ _
    · exact tallied_silent _ _ _ rfl rfl rfl rfl
  | key => cases data <;> exact tallied_silent _ _ _ rfl rfl rfl rfl
  | accountId => cases data <;> exact tallied_silent _ _ _ rfl rfl rfl rfl

theorem deduceExpiryTime_tallied (self : EpgManager) (clock : EpgClock) (file : StateFile) :
    Tallied self (deduceExpiryTime self clock file) := by
  unfold deduceExpiryTime
  split
  · split_ifs
    · exact setExpiryTime_tallied _ _ _ _ _ _
    · exact tallied_silent _ _ _ rfl rfl rfl rfl
  · exact tallied_silent _ _ _ rfl rfl rfl rfl

theorem fileLoadCb_tallied (self : EpgManager) (clock : EpgClock) (hadError : Bool)
    (file : StateFile) (result : LoadResult) :
    Tallied self (fileLoadCb self clock hadError file result) := by
  have hupdate (data : Option (List UInt8)) :
      Tallied self (updateFromFile self clock file data) := by
    have hl := loadFile_tallied self clock file data
    unfold updateFromFile
    by_cases hok : (loadFile self clock file data).1 = true
    · simp only [if_pos hok]
      refine tallied_andThen (tallied_andThen hl (deduceExpiryTime_tallied _ _ _)) ?_
      exact tallied_silent _ _ _ rfl rfl rfl rfl
    · simp only [if_neg hok]
      exact hl
  unfold fileLoadCb
  split_ifs
  · exact tallied_silent _ _ _ rfl rfl rfl rfl
  · cases result with
    | contents data => exact hupdate (some data)
    | failed error =>
      by_cases he : error = .notFound
      · simp only [if_pos he]
        exact hupdate none
      · simp only [if_neg he]
        exact tallied_silent _ _ _ rfl rfl rfl rfl

theorem savesStarted_length (clock : EpgClock) (effects : List Effect) :
    (savesStarted clock effects).length = effects.countP Effect.isSave := by
  rw [savesStarted,List.length_reverse,List.length_filterMap_eq_countP]
  refine List.countP_congr (fun e _ => ?_)
  cases e <;> exact Iff.rfl

theorem serves_tallied {clock : EpgClock} {m : EpgManager} {out : Outcome}
    (h : Serves clock m out) : Tallied m out := by
  refine ⟨?_,h.cancelled,h.pendingShutdown⟩
  rw [← savesStarted_length clock]
  rcases h.saves with ⟨hs,hp,-⟩ | ⟨hs,hp⟩
  · rw [hs,hp]
    rfl
  · rw [hs,hp]
    rfl

theorem checkExpiredCb_tallied (self : EpgManager) (clock : EpgClock) :
    Tallied self (self,(checkExpiredCb self clock).2) := by
  unfold checkExpiredCb
  split_ifs <;> exact tallied_silent _ _ _ rfl rfl rfl rfl

theorem savesStarted_eq (clock : EpgClock) (effects : List Effect) :
    savesStarted clock effects = (effects.filterMap (Effect.started clock)).reverse := rfl

theorem performAll_saves (effects : List Effect) (s : Initialisation.System) :
    (performAll s effects).saves = s.saves++(savesStarted s.clock effects).reverse ∧
      (performAll s effects).clock = s.clock := by
  obtain ⟨-,-,hs,hc⟩ := performAll_lists effects s
  rw [savesStarted_eq,List.reverse_reverse]
  exact ⟨hs,hc⟩

theorem core_cases {hmac : Hmac} {s s' : System} {op : Initialisation.Operation}
    (hs : step hmac s (.core op) = some s') :
    (∃ i sv result, op = .saveCb i ∧ s.core.saves[i]? = some sv ∧ sv.result = some result ∧
        sv.reported = false ∧ s' = report s i sv result) ∨
      ((∀ i, op ≠ .saveCb i) ∧ ∃ core, Initialisation.step s.core op = some core ∧
        s' = { s with core := core }) := by
  by_cases hop : ∃ i, op = .saveCb i
  · left
    obtain ⟨i,rfl⟩ := hop
    simp only [step,bind,Option.bind_eq_some_iff] at hs
    obtain ⟨sv,hi,result,hresult,hs⟩ := hs
    split_ifs at hs with hr
    cases hs
    exact ⟨i,sv,result,rfl,hi,hresult,by simpa using hr,rfl⟩
  · right
    have hmap : step hmac s (.core op) =
        (Initialisation.step s.core op).map (fun core => { s with core := core }) := by
      cases op with
      | saveCb i => exact absurd ⟨i,rfl⟩ hop
      | _ => rfl
    rw [hmap] at hs
    obtain ⟨core,hcore,rfl⟩ := Option.map_eq_some_iff.mp hs
    exact ⟨fun i hi => hop ⟨i,hi⟩,core,hcore,rfl⟩

end EosPayg.Lifecycle
