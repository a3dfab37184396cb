import EosPayg.TaskValues
import EosPayg.RecordList

/-!
# Loading the providers and keeping one

One task counts the initialisations of the providers found, another the
shutdowns of those that are not kept. A provider is named by the place of its
plugin in the list of the engine. Initialisations and shutdowns complete in any
order, and the callback of a task that was returned is called some time later.
-/

set_option autoImplicit false

namespace EosPayg.ProviderLoader
open EosPayg.MultiTask EosPayg.TaskValues

/-- What becomes of a plugin: the answers of the engine, whether its provider
initialises, and whether it then says to be enabled. -/
structure Plugin where
  loads : Bool
  providesExtension : Bool
  creates : Bool
  asyncInitable : Bool
  initialises : Bool
  enabled : Bool
  deriving DecidableEq

inductive GError where
  | cancelled
  deriving DecidableEq

inductive Warning where
  | failedToLoad (i : ℕ)
  | failedToCreate (i : ℕ)
  | notAsyncInitable (i : ℕ)
  | failedToInitialize (i : ℕ)
  | failedToShutDown (i : ℕ)
  | failedToShutDownUnused
  deriving DecidableEq

/-- The loader during one call for the first enabled provider. The array of
providers belongs to the task that loads them, the chosen provider to the task of
the caller. The calls of `epg_provider_shutdown_async` and their completions are
recorded in order. -/
structure Loader where
  plugins : List Plugin
  cancelled : Bool
  loadTask : GTask GError Unit
  inits : List ℕ
  providers : List ℕ
  loadCalled : Bool
  chosen : Option ℕ
  shutdownTask : GTask GError Unit
  shutdowns : List ℕ
  shutdownAsync : List ℕ
  shutDown : List ℕ
  shutdownCalled : Bool
  returned : List (Except GError (Option ℕ))
  warnings : List Warning
  deriving DecidableEq

def loaderNew (plugins : List Plugin) : Loader where
  plugins := plugins
  cancelled := false
  loadTask := gTaskNew
  inits := []
  providers := []
  loadCalled := false
  chosen := none
  shutdownTask := gTaskNew
  shutdowns := []
  shutdownAsync := []
  shutDown := []
  shutdownCalled := false
  returned := []
  warnings := []

def gWarning (s : Loader) (w : Warning) : Loader := { s with warnings := s.warnings++[w] }

def getEnabled (plugins : List Plugin) (i : ℕ) : Bool := plugins[i]?.any Plugin.enabled

def initialises (plugins : List Plugin) (i : ℕ) : Bool := plugins[i]?.any Plugin.initialises

def tryLoad (s : Loader) (i : ℕ) : Loader :=
  match s.plugins[i]? with
  | none => s
  | some p =>
    if p.loads = false then gWarning s (.failedToLoad i)
    else if p.providesExtension = false then s
    else if p.creates = false then gWarning s (.failedToCreate i)
    else if p.asyncInitable = false then gWarning s (.notAsyncInitable i)
    else { s with loadTask := increment s.loadTask, inits := s.inits++[i] }

/-- Always returns the array of providers, which is dropped unless nothing is
pending any more. -/
def maybeReturn (s : Loader) (provider : Option ℕ) : Loader :=
  { s with
    providers := s.providers++provider.toList
    loadTask := returnPointer s.loadTask () true }

def loadAsync (s : Loader) : Loader :=
  let s := { s with loadTask := attach s.loadTask 1 }
  maybeReturn ((List.range s.plugins.length).foldl tryLoad s) none

def providerInitCb (s : Loader) (i : ℕ) : Loader :=
  let s := { s with inits := s.inits.erase i }
  if initialises s.plugins i then maybeReturn s (some i)
  else maybeReturn (gWarning s (.failedToInitialize i)) none

def loadFinish (s : Loader) (result : Except GError (TaskValue Unit)) :
    Except GError (List ℕ) :=
  if s.cancelled then .error .cancelled else result.map (fun _ => s.providers)

/-- The last entry takes the place of the one that is removed. -/
def gPtrArrayRemoveIndexFast (array : List ℕ) (i : ℕ) : List ℕ :=
  match array.getLast? with
  | none => array
  | some last => (array.set i last).dropLast

def shutdownOneAsync (s : Loader) (i : ℕ) : Loader :=
  { s with shutdowns := s.shutdowns++[i], shutdownAsync := s.shutdownAsync++[i] }

def shutdownProvidersAsync (s : Loader) (providers : List ℕ) : Loader :=
  let task : GTask GError Unit := { gTaskNew with cancelled := s.cancelled }
  let s := { s with shutdownTask := attach task ((providers.length+1)%(maxUint+1)) }
  let s := providers.foldl shutdownOneAsync s
  { s with shutdownTask := returnBoolean s.shutdownTask true }

def shutdownOneCb (s : Loader) (i : ℕ) (success : Bool) : Loader :=
  let s := { s with shutdowns := s.shutdowns.erase i, shutDown := s.shutDown++[i] }
  let s := if success then s else gWarning s (.failedToShutDown i)
  { s with shutdownTask := returnBoolean s.shutdownTask true }

def getFirstEnabledLoadCb (s : Loader) (result : Except GError (TaskValue Unit)) : Loader :=
  let s := { s with loadCalled := true }
  match loadFinish s result with
  | .error e => { s with returned := s.returned++[.error e] }
  | .ok providers =>
    match providers.findIdx? (getEnabled s.plugins) with
    | some i =>
      let rest := gPtrArrayRemoveIndexFast providers i
      shutdownProvidersAsync { s with providers := rest, chosen := providers[i]? } rest
    | none => shutdownProvidersAsync s providers

def getFirstEnabledShutdownCb (s : Loader) (result : Except GError (TaskValue Unit)) : Loader :=
  let failed := s.cancelled || !result.isOk
  let s := if failed then gWarning s .failedToShutDownUnused else s
  { s with shutdownCalled := true, returned := s.returned++[.ok s.chosen] }

def getFirstEnabledAsync (plugins : List Plugin) : Loader := loadAsync (loaderNew plugins)

def cancelAll (s : Loader) : Loader :=
  { s with
    cancelled := true
    loadTask := cancel s.loadTask
    shutdownTask := cancel s.shutdownTask }

inductive Operation where
  | initCb (i : ℕ)
  | loadCb
  | shutdownCb (i : ℕ) (success : Bool)
  | allShutDownCb
  | cancel
  deriving DecidableEq

def step (s : Loader) : Operation → Option Loader
  | .initCb i => if i ∈ s.inits then some (providerInitCb s i) else none
  | .loadCb =>
    if s.loadCalled then none else s.loadTask.returned.head?.map (getFirstEnabledLoadCb s)
  | .shutdownCb i success => if i ∈ s.shutdowns then some (shutdownOneCb s i success) else none
  | .allShutDownCb =>
    if s.shutdownCalled then none
    else s.shutdownTask.returned.head?.map (getFirstEnabledShutdownCb s)
  | .cancel => some (cancelAll s)

def isStarted (plugins : List Plugin) (i : ℕ) : Bool :=
  plugins[i]?.any (fun p => p.loads && p.providesExtension && p.creates && p.asyncInitable)

def started (plugins : List Plugin) : List ℕ :=
  (List.range plugins.length).filter (isStarted plugins)

theorem tryLoad_started (s : Loader) (i : ℕ) (h : isStarted s.plugins i = true) :
    tryLoad s i = { s with loadTask := increment s.loadTask, inits := s.inits++[i] } := by
  unfold isStarted at h
  unfold tryLoad
  cases hp : s.plugins[i]? with
  | none => simp [hp] at h
  | some p =>
    simp only [hp,Option.any_some,Bool.and_eq_true] at h
    obtain ⟨⟨⟨hl,hx⟩,hc⟩,ha⟩ := h
    simp [hl,hx,hc,ha]

theorem tryLoad_not_started (s : Loader) (i : ℕ) (h : isStarted s.plugins i = false) :
    ∃ ws, tryLoad s i = { s with warnings := ws } := by
  unfold isStarted at h
  unfold tryLoad
  cases hp : s.plugins[i]? with
  | none => exact ⟨s.warnings,rfl⟩
  | some p =>
    dsimp only
    split_ifs with hl hx hc ha
    · exact ⟨_,rfl⟩
    · exact ⟨s.warnings,rfl⟩
    · exact ⟨_,rfl⟩
    · exact ⟨_,rfl⟩
    · simp_all

structure Counting (v : TaskValue Unit) (n : ℕ) (t : GTask GError Unit) : Prop where
  cancelled : t.cancelled = false
  errorReturned : t.errorReturned = false
  pending : t.pending = n
  returned : t.returned = if n = 0 then [.ok v] else []

theorem counting_attach (v : TaskValue Unit) (n : ℕ) (hn : 0 < n) :
    Counting v n (attach gTaskNew n) := by
  have ha : (attach gTaskNew n : GTask GError Unit) = ⟨n, false, false, [], []⟩ :=
    attached_eq n hn
  rw [ha]
  exact ⟨rfl,rfl,rfl,(if_neg hn.ne').symm⟩

theorem counting_increment {v : TaskValue Unit} {n : ℕ} {t : GTask GError Unit}
    (h : Counting v (n+1) t) (hm : n+1 < maxUint) : Counting v (n+2) (increment t) := by
  have hp := h.pending
  rw [increment_open t (by omega) (by omega)]
  exact ⟨h.cancelled,h.errorReturned,congrArg (·+1) hp,h.returned⟩

theorem counting_value {v : TaskValue Unit} {n : ℕ} {t : GTask GError Unit}
    (h : Counting v (n+1) t) (ds : List Unit) :
    Counting v n (if t.pending = 1 ∧ t.errorReturned = false then gTaskReturnValue (release t) v
      else { release t with destroyed := ds }) := by
  have hret : t.returned = [] := h.returned
  have hp := h.pending
  by_cases hn : n = 0
  · subst hn
    rw [if_pos ⟨hp,h.errorReturned⟩]
    refine ⟨h.cancelled,h.errorReturned,?_,?_⟩
    · show t.pending-1 = 0
      omega
    · show t.returned++[.ok v] = [.ok v]
      rw [hret,List.nil_append]
  · rw [if_neg (fun hc => hn (by omega))]
    refine ⟨h.cancelled,h.errorReturned,?_,?_⟩
    · show t.pending-1 = n
      omega
    · show t.returned = _
      rw [hret,if_neg hn]

theorem counting_pointer {n : ℕ} {t : GTask GError Unit} (h : Counting (.pointer ()) (n+1) t) :
    Counting (.pointer ()) n (returnPointer t () true) := by
  have hp := h.pending
  rw [returnPointer_open t () true (by omega) h.cancelled,if_pos rfl]
  exact counting_value h (t.destroyed++[()])

theorem counting_boolean {n : ℕ} {t : GTask GError Unit}
    (h : Counting (.boolean true) (n+1) t) :
    Counting (.boolean true) n (returnBoolean t true) := by
  have hp := h.pending
  rw [returnBoolean_open t true (by omega) h.cancelled]
  exact counting_value h t.destroyed

theorem counting_open {v : TaskValue Unit} {n : ℕ} {t : GTask GError Unit} (h : Counting v n t) :
    t.returned.head? = if n = 0 then some (.ok v) else none := by
  rw [h.returned]
  split_ifs <;> rfl

/-- The loop over the plugins starts an initialisation for each that can be and
counts it. -/
theorem tryLoad_all (l : List ℕ) (s : Loader) (n : ℕ)
    (h : Counting (.pointer ()) (n+1) s.loadTask)
    (hm : n+(l.filter (isStarted s.plugins)).length < maxUint) :
    ∃ task ws, l.foldl tryLoad s =
        { s with
          loadTask := task
          inits := s.inits++l.filter (isStarted s.plugins)
          warnings := ws } ∧
      Counting (.pointer ()) (n+(l.filter (isStarted s.plugins)).length+1) task := by
  induction l generalizing s n with
  | nil => exact ⟨s.loadTask,s.warnings,by simp,h⟩
  | cons i l ih =>
    rw [List.foldl_cons]
    by_cases hi : isStarted s.plugins i = true
    · rw [List.filter_cons_of_pos hi,List.length_cons] at hm
      rw [tryLoad_started s i hi,List.filter_cons_of_pos hi]
      obtain ⟨task,ws,he,hc⟩ :=
        ih { s with loadTask := increment s.loadTask, inits := s.inits++[i] } (n+1)
          (counting_increment h (by omega)) (by dsimp only; omega)
      refine ⟨task,ws,?_,?_⟩
      · rw [he,List.append_assoc]
        rfl
      · rw [List.length_cons]
        rwa [show n+((l.filter (isStarted s.plugins)).length+1)+1 =
          n+1+(l.filter (isStarted s.plugins)).length+1 by omega]
    · rw [List.filter_cons_of_neg hi] at hm
      obtain ⟨vs,hs⟩ := tryLoad_not_started s i (Bool.not_eq_true _ ▸ hi)
      rw [hs,List.filter_cons_of_neg hi]
      exact ih { s with warnings := vs } n h hm

theorem providerInitCb_eq (s : Loader) (i : ℕ) :
    ∃ ws, providerInitCb s i =
      { s with
        inits := s.inits.erase i
        providers := s.providers++(if initialises s.plugins i then [i] else [])
        loadTask := returnPointer s.loadTask () true
        warnings := ws } := by
  unfold providerInitCb
  dsimp only
  by_cases hok : initialises s.plugins i = true
  · rw [if_pos hok,if_pos hok]
    exact ⟨s.warnings,rfl⟩
  · rw [if_neg hok,if_neg hok]
    exact ⟨_,rfl⟩

theorem shutdownOneCb_eq (s : Loader) (i : ℕ) (success : Bool) :
    ∃ ws, shutdownOneCb s i success =
      { s with
        shutdowns := s.shutdowns.erase i
        shutDown := s.shutDown++[i]
        shutdownTask := returnBoolean s.shutdownTask true
        warnings := ws } := by
  cases success with
  | false => exact ⟨_,rfl⟩
  | true => exact ⟨s.warnings,rfl⟩

theorem shutdownOne_all (l : List ℕ) (s : Loader) :
    l.foldl shutdownOneAsync s =
      { s with shutdowns := s.shutdowns++l, shutdownAsync := s.shutdownAsync++l } := by
  induction l generalizing s with
  | nil => simp
  | cons i l ih =>
    rw [List.foldl_cons,ih]
    simp [shutdownOneAsync]

theorem removeIndexFast_perm (array : List ℕ) (i a : ℕ) (h : array[i]? = some a) :
    (a::gPtrArrayRemoveIndexFast array i).Perm array := by
  obtain ⟨before,after,rfl,hset⟩ := RecordList.set_split array i a h
  unfold gPtrArrayRemoveIndexFast
  rcases List.eq_nil_or_concat' after with rfl | ⟨mid,last,rfl⟩
  · have hl : (before++[a]).getLast? = some a := List.getLast?_concat
    simp only [hl,hset,List.dropLast_concat]
    exact List.perm_append_singleton a before |>.symm
  · have hl : (before++a::(mid++[last])).getLast? = some last := by
      rw [← List.cons_append,← List.append_assoc,List.getLast?_concat]
    have hdrop : (before++last::(mid++[last])).dropLast = before++last::mid := by
      rw [← List.cons_append,← List.append_assoc,List.dropLast_concat]
    simp only [hl,hset,hdrop]
    refine List.Perm.trans ?_ List.perm_middle.symm
    refine List.Perm.cons a ?_
    exact List.perm_middle.trans ((List.perm_append_singleton last (before++mid)).symm.trans
      (by rw [List.append_assoc]))

end EosPayg.ProviderLoader
