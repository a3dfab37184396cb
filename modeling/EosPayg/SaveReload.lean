import EosPayg.ExpiryLoad
import EosPayg.Startup

/-!
# From a save to the manager that is initialised from it

The files of a complete save are read side by side. When the used codes are in
memory before the expiry seconds are, nothing but a failing file operation can
make initialisation fail, and it ends with the used codes of the save and its
credit less the time that has passed on the wall clock.
-/

set_option autoImplicit false

namespace EosPayg.SaveReload
open EosPayg.WordArithmetic EosPayg.ManagerState EosPayg.ManagerFiles EosPayg.LoadCallback
  EosPayg.GuardedRun EosPayg.Initialisation EosPayg.InitProgress EosPayg.InitFault
  EosPayg.InitOutcome EosPayg.ExpiryCallback EosPayg.ExpiryLoad
open EosPayg.ExpiryTimer (fileSpan deducedSpan)
open EosPayg.Startup (UsedCodesFirst initAsync_invariant step_invariant spentCode savedFiles
  hourLater loadNow saveNow)

/-- The used codes are in memory before the expiry seconds are. -/
def LoadedFirst (s : System) : Operation → Prop
  | .loadCb i => ∀ l ∈ s.loads[i]?, l.file = .expirySeconds → usedCodesLoaded s = true
  | _ => True

def Operation.fails : Operation → Bool
  | .readFails _ _ => true
  | .deleteFails _ error => error ≠ .notFound
  | .fail _ _ _ => true
  | _ => false

/-- Initialisation from the files of a save: unless there was a fault, the expiry
time is on its way, and the used codes are those saved. -/
structure Reloading (original : List UsedCode) (files : Directory) (clock : EpgClock)
    (s : System) : Prop where
  deciding : Deciding files clock s
  codes : Faulted s ∨ Startup.Invariant original s

theorem faultless_load {files : Directory} {clock : EpgClock} {s : System}
    (h : Deciding files clock s) (hno : ¬ Faulted s) (hc : files .clockTime ≠ none)
    (l : Load) (hm : l ∈ s.loads) (hd : Load.decides l = true) :
    (l.file = .clockTime ∨ l.file = .expirySeconds) ∧ s.files l.file = files l.file ∧
      s.manager.lastSaveExpirySecs = none := by
  rcases h.stage with hf | ⟨hu,-⟩ | ⟨hu,-⟩ | ⟨hz,-⟩
  · exact absurd hf hno
  · have hfile := (hu.loads l hm hd).1
    rw [hfile]
    exact ⟨Or.inl rfl,hu.files _ rfl,hu.lastSaveExpirySecs⟩
  · have hfile := (hu.loads l hm hd).1
    rw [childFile,if_neg hc] at hfile
    rw [hfile]
    exact ⟨Or.inr rfl,hu.files _ rfl,hu.lastSaveExpirySecs⟩
  · exact absurd hd (List.countP_eq_zero.mp hz l hm)

theorem refused_present {files : Directory} {file : StateFile} :
    Refused file (loadContents files file) ↔ MalformedData (files file) file := by
  unfold loadContents MalformedData
  cases files file with
  | none => exact iff_of_false (fun h => h rfl) nofun
  | some bytes => simp [Refused]

theorem holds_clockTime {files : Directory} {saved : SavedState} (hs : Holds files saved) :
    files .clockTime ≠ none := by
  rw [hs.1]
  exact Option.some_ne_none _

theorem saved_formed {files : Directory} {saved : SavedState} (hs : Holds files saved)
    (file : StateFile) (hf : file = .clockTime ∨ file = .expirySeconds) :
    ¬ MalformedData (files file) file := by
  rcases hf with rfl | rfl
  · exact eightBytes_formed hs.1 (wordBytes_length _) _ rfl
  · exact eightBytes_formed hs.2.1 (wordBytes_length _) _ rfl

theorem read_formed {original : List UsedCode} {files : Directory} {clock : EpgClock} {s : System}
    {saved : SavedState} (h : Reloading original files clock s) (hs : Holds files saved)
    (hno : ¬ Faulted s) (l : Load) (hm : l ∈ s.loads) (hf : l.status = .inFlight) :
    ¬ Refused l.file (loadContents s.files l.file) := by
  rw [refused_present]
  cases hx : StateFile.ofExpiry l.file with
  | true =>
    have hd := (uncalled_decides (inFlight_uncalled hf)).trans hx
    obtain ⟨hfile,hsame,-⟩ := faultless_load h.deciding hno (holds_clockTime hs) l hm hd
    rw [hsame]
    exact saved_formed hs l.file hfile
  | false =>
    cases hfile : l.file with
    | usedCodes =>
      have hinv := h.codes.resolve_left hno
      obtain ⟨codes,hcodes,-⟩ := hinv.contents.disk
      rw [usedCodes_malformed,hcodes]
      exact Option.some_ne_none _
    | key =>
      rintro ⟨_,_,hmal⟩
      exact hmal
    | accountId =>
      rintro ⟨_,_,hmal⟩
      exact hmal
    | _ => rw [hfile] at hx; cases hx

theorem fault_iff_fails {original : List UsedCode} {files : Directory} {clock : EpgClock}
    {s s' : System} {op : Operation} {saved : SavedState} (h : Reloading original files clock s)
    (hs : Holds files saved) (hno : ¬ Faulted s) (hstep : step s op = some s') :
    Fault s op ↔ Operation.fails op = true := by
  cases step_cases s s' op hstep with
  | read i l hi hf =>
    refine iff_of_false ?_ Bool.false_ne_true
    rintro ⟨o,ho,hbad⟩
    rw [hi] at ho
    cases ho
    exact read_formed h hs hno l (List.mem_of_getElem? hi) hf hbad
  | readFails i error l hi hf he => exact iff_of_true trivial rfl
  | deleteFails i error d hi hf => simp [Fault,Operation.fails]
  | fail i f error sv sv' hi he => exact iff_of_true trivial rfl
  | _ => exact iff_of_false id Bool.false_ne_true

theorem clockTime_lastSave (self : EpgManager) (data : Option (List UInt8)) :
    (loadWallclockTime self data).2.1.lastSaveExpirySecs = self.lastSaveExpirySecs := by
  unfold loadWallclockTime
  by_cases h0 : (data.getD []).length = 0
  · rw [if_pos h0]
  · rw [if_neg h0]
    by_cases h8 : (data.getD []).length ≠ 8
    · rw [if_pos h8]
      rfl
    · rw [if_neg h8]

theorem reloading_first {original : List UsedCode} {files : Directory} {clock : EpgClock}
    {s s' : System} {op : Operation} {saved : SavedState} (h : Reloading original files clock s)
    (hs : Holds files saved) (hno : ¬ Faulted s) (ho : LoadedFirst s op)
    (hstep : step s op = some s') : UsedCodesFirst original s op := by
  cases step_cases s s' op hstep with
  | loadCb i l result hi hl =>
    by_cases hfile : l.file = .expirySeconds
    · exact Or.inr (Or.inl (ho l hi hfile))
    right
    right
    intro o hmem data _ span hspan
    rw [hi] at hmem
    cases hmem
    exfalso
    cases hx : StateFile.ofExpiry l.file with
    | false =>
      have hother : l.file ≠ .clockTime ∧ l.file ≠ .expirySeconds := by
        constructor <;>
          intro hh <;>
          rw [hh] at hx <;>
          cases hx
      rw [deducedSpan_other _ _ _ hother] at hspan
      cases hf : l.file <;> rw [hf] at hx hspan <;> simp [fileSpan,StateFile.ofExpiry] at hx hspan
    | true =>
      have hd := (uncalled_decides (read_uncalled hl)).trans hx
      obtain ⟨hkind,-,hnone⟩ := faultless_load h.deciding hno (holds_clockTime hs) l
        (List.mem_of_getElem? hi) hd
      have hclock := hkind.resolve_right hfile
      have hlast := (clockTime_lastSave s.manager data).trans hnone
      rw [hclock] at hspan
      rcases hspan with hspan | hspan
      · cases hspan
      · have hno' := deducedSpan_unknown (loadWallclockTime s.manager data).2.1 s.clock .clockTime
          (Or.inr hlast)
        cases hno'.symm.trans hspan
  | _ => trivial

theorem step_reloading {original : List UsedCode} {files : Directory} {clock : EpgClock}
    {s s' : System} {op : Operation} {saved : SavedState} (h : Reloading original files clock s)
    (hs : Holds files saved) (ha : Operation.acts op = true) (ho : LoadedFirst s op)
    (hstep : step s op = some s') : Reloading original files clock s' := by
  refine ⟨step_deciding h.deciding ha hstep,?_⟩
  by_cases hf : Faulted s
  · exact Or.inl ((completing_faulted h.deciding.completing hstep).mpr (Or.inl hf))
  · right
    exact step_invariant s op s' (h.codes.resolve_left hf) (reloading_first h hs hf ho hstep) hstep

theorem initAsync_reloading (enabled : Bool) (clock : EpgClock) (files : Directory)
    (saved : SavedState) (hs : Holds files saved) :
    Reloading saved.usedCodes.codes files clock
      (initAsync (epgManagerInit enabled) clock files) := by
  refine ⟨initAsync_deciding enabled clock files,Or.inr ?_⟩
  apply initAsync_invariant
  rw [hs.2.2]
  exact usedCodesImage_decodes saved.usedCodes

/-- The files of a save give its credit less the time passed on the wall clock. -/
theorem expiryOf_saved (clock : EpgClock) (files : Directory) (saved : SavedState)
    (hs : Holds files saved) : expiryOf clock files = expiryAfter clock clock.time
      (creditOnLoad saved.clockTime saved.expirySeconds clock.wallclockTime) := by
  rw [expiryOf,creditSpan,if_neg (holds_clockTime hs),savedWord_wordBytes hs.1,secondsSpan,
    savedWord_wordBytes hs.2.1]
  rfl

theorem step_fails {original : List UsedCode} {files : Directory} {clock : EpgClock}
    {s s' : System} {op : Operation} {saved : SavedState} (h : Reloading original files clock s)
    (hs : Holds files saved) (hstep : step s op = some s') :
    Faulted s' ↔ Faulted s ∨ Operation.fails op = true := by
  rw [completing_faulted h.deciding.completing hstep]
  by_cases hf : Faulted s
  · exact iff_of_true (Or.inl hf) (Or.inl hf)
  · rw [fault_iff_fails h hs hf hstep]

theorem reloaded_credit (m : EpgManager) (saveClock clock : EpgClock) (r : ℕ)
    (hcredit : r = remaining m saveClock.time-
      (clock.wallclockTime.toNat-saveClock.wallclockTime.toNat)) (hb : ¬ Bogus r) :
    (creditOnLoad (saveState m saveClock).clockTime (saveState m saveClock).expirySeconds
      clock.wallclockTime).toNat = r := by
  rw [creditOnLoad_toNat,saveState_expirySeconds]
  show creditLeft saveClock.wallclockTime.toNat _ _ = r
  unfold creditLeft
  rw [← hcredit,if_neg (fun h => hb h.2)]

def spentManager : EpgManager :=
  { epgManagerInit true with usedCodes := gArraySort spentCode, expiryTimeSecs := 86500 }

def saveMoment : EpgClock := ⟨100, 5000, true⟩

def reloadRun : List Operation :=
  loadNow 1 ++ loadNow 0 ++ loadNow 4 ++ saveNow ++ loadNow 2 ++ loadNow 3

instance (s : System) (op : Operation) : Decidable (LoadedFirst s op) :=
  match op with
  | .loadCb _ => inferInstanceAs (Decidable (∀ l ∈ _, _ → _))
  | .timePasses _ => isTrue trivial
  | .read _ => isTrue trivial
  | .readFails _ _ => isTrue trivial
  | .delete _ => isTrue trivial
  | .deleteFails _ _ => isTrue trivial
  | .deleteCb _ => isTrue trivial
  | .takeEffect _ _ => isTrue trivial
  | .fail _ _ _ => isTrue trivial
  | .opCb _ _ => isTrue trivial
  | .saveCb _ => isTrue trivial

end EosPayg.SaveReload
