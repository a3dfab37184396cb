import EosPayg.ExpiryTimer

/-!
# What the callback of a loaded file asks for

A callback holds one unit of the pending count of its task. It takes further
units for the loads, deletions and the save it starts, one before each, and
gives its own back at the end. Only the load of an expiry may start a save,
and no callback but that of the used codes touches them.
-/

set_option autoImplicit false

namespace EosPayg.LoadCallback
open EosPayg.WordArithmetic EosPayg.ManagerState EosPayg.ManagerFiles EosPayg.GuardedRun
open EosPayg.ExpiryTimer (fileSpan deducedSpan deduceExpiryTime_span)

def Effect.takesUnit : Effect → Bool
  | .taskReturnBoolean => true
  | .taskReturnError _ => true
  | .loadContents _ => true
  | .deleteFile _ => true
  | .save _ forTask => forTask
  | _ => false

/-- The units of the pending count a callback holds, from effect to effect. -/
def spend (units : ℕ) (e : Effect) : Option ℕ :=
  if e = .taskIncrement then if 0 < units then some (units+1) else none
  else if Effect.takesUnit e then if 0 < units then some (units-1) else none
  else some units

def Balanced (effects : List Effect) : Prop :=
  ∀ units, 0 < units → run spend effects units = some units

/-- A bound on the times the callback of a file, and those of the loads it
starts, increment the pending count. -/
def weight : StateFile → ℕ
  | .clockTime => 6
  | _ => 3

def Effect.cost : Effect → ℕ
  | .taskIncrement => 1
  | .loadContents file => weight file
  | _ => 0

def costs (effects : List Effect) : ℕ := (effects.map Effect.cost).sum

def Effect.outside : Effect → Bool
  | .notify _ _ => true
  | .expired _ => true
  | .sourceDestroy => true
  | .sourceAttach _ => true
  | _ => false

@[simp]
theorem costs_append (as bs : List Effect) : costs (as++bs) = costs as+costs bs := by
  simp [costs]

theorem balanced_append {as bs : List Effect} (ha : Balanced as) (hb : Balanced bs) :
    Balanced (as++bs) := by
  intro units hu
  rw [run_append,ha units hu]
  exact hb units hu

theorem balanced_nil : Balanced [] := fun _ _ => rfl

theorem balanced_start (e : Effect) (he : Effect.takesUnit e = true) :
    Balanced [.taskIncrement, e] := by
  intro units hu
  have hne : e ≠ .taskIncrement := by
    intro hh
    rw [hh] at he
    cases he
  simp [run,spend,hu,hne,he]

theorem balanced_outside (effects : List Effect) (h : effects.all Effect.outside = true) :
    Balanced effects := by
  intro units hu
  induction effects with
  | nil => rfl
  | cons e es ih =>
    rw [List.all_cons,Bool.and_eq_true] at h
    have he : spend units e = some units := by
      cases e <;> first | rfl | cases h.1
    rw [run,he]
    exact ih h.2

theorem costs_outside (effects : List Effect) (h : effects.all Effect.outside = true) :
    costs effects = 0 := by
  induction effects with
  | nil => rfl
  | cons e es ih =>
    rw [List.all_cons,Bool.and_eq_true] at h
    have he : Effect.cost e = 0 := by
      cases e <;> first | rfl | cases h.1
    show Effect.cost e+costs es = 0
    rw [he,ih h.2]

theorem outside_ofTimer (effects : List Effect) (h : effects.all Effect.ofTimer = true) :
    effects.all Effect.outside = true := by
  rw [List.all_eq_true] at h ⊢
  intro e he
  have ht := h e he
  cases e <;> first | rfl | cases ht

theorem setExpiryTime_starts (self : EpgManager) (clock : EpgClock)
    (nowSecs spanSecs : UInt64) :
    ∃ before, before.all Effect.outside = true ∧
      (setExpiryTime self clock true true nowSecs spanSecs).2 = before ++
        if self.expiryTimeSecs ≠ expiryAfter clock nowSecs spanSecs ∧ self.enabled = true then
          [.taskIncrement, .save (saveState
            (setExpiryTime self clock true true nowSecs spanSecs).1 clock) true]
        else [] := by
  rcases setExpiryTime_effects self clock true true nowSecs spanSecs with ⟨before,hb,he⟩
  have hout := outside_ofTimer before hb
  rw [he]
  by_cases hc : self.expiryTimeSecs ≠ expiryAfter clock nowSecs spanSecs ∧ self.enabled = true
  · rw [if_pos hc,if_pos hc,if_pos rfl]
    use before ++ [.notify .expiryTime
      (published (setExpiryTime self clock true true nowSecs spanSecs).1)]
    constructor
    · rw [List.all_append,hout]
      rfl
    · rw [List.append_assoc]
      rfl
  · rw [if_neg hc,if_neg hc]
    exact ⟨before,hout,rfl⟩

/-- What a piece of the callback of a file may ask for: saves, which hold
given used codes and need a change of the expiry time, and the deletion of the
used codes, if it is their file and a bad one. -/
structure Asks (file : StateFile) (used : UsedCodes) (changes bad : Prop)
    (effects : List Effect) : Prop where
  balanced : Balanced effects
  saves : ∀ saved forTask, .save saved forTask ∈ effects → saved.usedCodes = used ∧ changes
  deletes : .deleteFile .usedCodes ∈ effects → file = .usedCodes ∧ bad

theorem asks_nil (file : StateFile) (used : UsedCodes) (changes bad : Prop) :
    Asks file used changes bad [] := ⟨balanced_nil,nofun,nofun⟩

theorem asks_append {file : StateFile} {used : UsedCodes} {changes bad : Prop}
    {as bs : List Effect} (ha : Asks file used changes bad as)
    (hb : Asks file used changes bad bs) : Asks file used changes bad (as++bs) := by
  constructor
  · exact balanced_append ha.balanced hb.balanced
  · intro saved forTask h
    rcases List.mem_append.mp h with h | h
    · exact ha.saves saved forTask h
    · exact hb.saves saved forTask h
  · intro h
    rcases List.mem_append.mp h with h | h
    · exact ha.deletes h
    · exact hb.deletes h

theorem asks_start (file other : StateFile) (used : UsedCodes) (changes bad : Prop)
    (e : Effect) (he : e = .loadContents other ∨ (e = .deleteFile other ∧
      (other = .usedCodes → file = .usedCodes ∧ bad))) :
    Asks file used changes bad [.taskIncrement, e] := by
  rcases he with rfl | ⟨rfl,hd⟩
  · exact ⟨balanced_start _ rfl,by simp,by simp⟩
  · constructor
    · exact balanced_start _ rfl
    · simp
    · intro h
      simp only [List.mem_cons,reduceCtorEq,Effect.deleteFile.injEq,List.not_mem_nil,
        or_false,false_or] at h
      exact hd h.symm

theorem setExpiryTime_asks (file : StateFile) (self : EpgManager) (clock : EpgClock)
    (spanSecs : UInt64) (changes bad : Prop)
    (hc : self.expiryTimeSecs ≠ expiryAfter clock clock.time spanSecs → changes) :
    Asks file self.usedCodes changes bad
        (setExpiryTime self clock true true clock.time spanSecs).2 ∧
      costs (setExpiryTime self clock true true clock.time spanSecs).2 ≤ 1 := by
  rcases setExpiryTime_starts self clock clock.time spanSecs with ⟨before,hb,he⟩
  have hout : ∀ e, e ∈ before → Effect.outside e = true := fun e => List.all_eq_true.mp hb e
  have hbefore : Asks file self.usedCodes changes bad before := by
    constructor
    · exact balanced_outside before hb
    · intro saved forTask h
      cases hout _ h
    · intro h
      cases hout _ h
  rw [he]
  split_ifs with h
  · constructor
    · apply asks_append hbefore
      constructor
      · exact balanced_start _ rfl
      · intro saved forTask hm
        simp only [List.mem_cons,reduceCtorEq,Effect.save.injEq,List.not_mem_nil,or_false,
          false_or] at hm
        rw [hm.1,setExpiryTime_state]
        exact ⟨rfl,hc h.1⟩
      · simp
    · rw [costs_append,costs_outside before hb]
      rfl
  · rw [List.append_nil]
    exact ⟨hbefore,(costs_outside before hb).le.trans (Nat.zero_le 1)⟩

def SetsNoExpiry (self : EpgManager) (clock : EpgClock) (file : StateFile)
    (data : Option (List UInt8)) : Prop :=
  ∀ span, fileSpan clock file (data.getD []) = some span ∨
      deducedSpan (loadFile self clock file data).2.1 clock file = some span →
    self.expiryTimeSecs = expiryAfter clock clock.time span

structure Loads (m : EpgManager) (clock : EpgClock) (file : StateFile)
    (data : Option (List UInt8)) (out : Outcome) : Prop where
  asks : Asks file m.usedCodes (¬ SetsNoExpiry m clock file data)
    (usedCodesOfBytes (data.getD []) = none) out.2
  cost : costs out.2+1 ≤ weight file
  usedCodes : file ≠ .usedCodes → out.1.usedCodes = m.usedCodes
  expiry : SetsNoExpiry m clock file data → out.1.expiryTimeSecs = m.expiryTimeSecs

theorem weight_ge (file : StateFile) : 3 ≤ weight file := by
  cases file <;> decide

theorem asks_outside (file : StateFile) (used : UsedCodes) (changes bad : Prop)
    (effects : List Effect) (h : effects.all Effect.outside = true) :
    Asks file used changes bad effects := by
  have hout : ∀ e, e ∈ effects → Effect.outside e = true := fun e => List.all_eq_true.mp h e
  constructor
  · exact balanced_outside effects h
  · intro saved forTask hm
    cases hout _ hm
  · intro hm
    cases hout _ hm

theorem loads_outside (self m : EpgManager) (clock : EpgClock) (file : StateFile)
    (data : Option (List UInt8)) (effects : List Effect)
    (he : effects.all Effect.outside = true)
    (hu : file ≠ .usedCodes → m.usedCodes = self.usedCodes)
    (hx : m.expiryTimeSecs = self.expiryTimeSecs) :
    Loads self clock file data (m,effects) := by
  constructor
  · exact asks_outside _ _ _ _ effects he
  · show costs effects+1 ≤ weight file
    have := weight_ge file
    rw [costs_outside effects he]
    omega
  · exact hu
  · exact fun _ => hx

theorem invalidData_asks (self : EpgManager) (file : StateFile) (used : UsedCodes)
    (changes bad : Prop) (hb : file = .usedCodes → bad) :
    Asks file used changes bad (invalidData self file).2 := by
  constructor
  · intro units hu
    simp [invalidData,run,spend,Effect.takesUnit,hu]
  · simp [invalidData]
  · intro h
    have hf : file = .usedCodes := by simpa [invalidData,eq_comm] using h
    exact ⟨hf,hb hf⟩

theorem loads_invalid (self : EpgManager) (clock : EpgClock) (file : StateFile)
    (data : Option (List UInt8))
    (hb : file = .usedCodes → usedCodesOfBytes (data.getD []) = none) :
    Loads self clock file data (invalidData self file) := by
  constructor
  · exact invalidData_asks self file _ _ _ hb
  · show 1+1 ≤ weight file
    have := weight_ge file
    omega
  · exact fun _ => rfl
  · exact fun _ => rfl

theorem loads_span (self : EpgManager) (clock : EpgClock) (file : StateFile)
    (data : Option (List UInt8)) (span : UInt64)
    (h : fileSpan clock file (data.getD []) = some span) :
    Loads self clock file data (setExpiryTime self clock true true clock.time span) := by
  have ha := setExpiryTime_asks file self clock span (¬ SetsNoExpiry self clock file data)
    (usedCodesOfBytes (data.getD []) = none) (fun hne hn => hne (hn span (Or.inl h)))
  constructor
  · exact ha.1
  · have := weight_ge file
    omega
  · intro _
    rw [setExpiryTime_state]
  · intro hn
    rw [setExpiryTime_state]
    exact (hn span (Or.inl h)).symm

theorem loadWallclockTime_loads (self : EpgManager) (clock : EpgClock)
    (data : Option (List UInt8)) :
    Loads self clock .clockTime data (loadWallclockTime self data).2 := by
  have hc : Asks .clockTime self.usedCodes (¬ SetsNoExpiry self clock .clockTime data)
      (usedCodesOfBytes (data.getD []) = none)
      [.taskIncrement, .loadContents (if data = none then .expiryTime else .expirySeconds)] :=
    asks_start _ _ _ _ _ _ (Or.inl rfl)
  have hw : weight (if data = none then .expiryTime else .expirySeconds) = 3 := by
    split_ifs <;> rfl
  have hcost : costs [.taskIncrement,
      .loadContents (if data = none then .expiryTime else .expirySeconds)] = 4 := by
    simp [costs,Effect.cost,hw]
  unfold loadWallclockTime
  by_cases h0 : (data.getD []).length = 0
  · rw [if_pos h0]
    exact ⟨hc,by rw [hcost]; decide,fun _ => rfl,fun _ => rfl⟩
  · rw [if_neg h0]
    by_cases h8 : (data.getD []).length ≠ 8
    · rw [if_pos h8]
      constructor
      · exact asks_append hc (invalidData_asks self .clockTime _ _ _ (by simp))
      · rw [andThen_effects,costs_append,hcost]
        show 4+1+1 ≤ 6
        omega
      · exact fun _ => rfl
      · exact fun _ => rfl
    · rw [if_neg h8]
      exact ⟨hc,by rw [hcost]; decide,fun _ => rfl,fun _ => rfl⟩

theorem loadExpiryTime_loads (self : EpgManager) (clock : EpgClock)
    (data : Option (List UInt8)) :
    Loads self clock .expiryTime data (loadExpiryTime self clock data).2 := by
  unfold loadExpiryTime
  by_cases h0 : (data.getD []).length = 0
  · rw [if_pos h0]
    exact loads_span self clock .expiryTime data 0 (by simp [fileSpan,h0])
  · rw [if_neg h0]
    by_cases h8 : (data.getD []).length ≠ 8
    · rw [if_pos h8]
      exact loads_invalid self clock .expiryTime data (by simp)
    · rw [if_neg h8]
      have hl := loads_span self clock .expiryTime data
        (if wordOfBytes (data.getD []) > clock.wallclockTime then
          wordOfBytes (data.getD [])-clock.wallclockTime else 0)
        (by simp [fileSpan,h0])
      constructor
      · exact asks_append hl.asks
          (asks_start _ .expiryTime _ _ _ _ (Or.inr ⟨rfl,by simp⟩))
      · have hs := (setExpiryTime_asks .expiryTime self clock
          (if wordOfBytes (data.getD []) > clock.wallclockTime then
            wordOfBytes (data.getD [])-clock.wallclockTime else 0) True True
          (fun _ => trivial)).2
        rw [andThen_effects,costs_append]
        show _+1+1 ≤ 3
        omega
      · exact hl.usedCodes
      · exact hl.expiry

theorem loadExpirySeconds_loads (self : EpgManager) (clock : EpgClock)
    (data : Option (List UInt8)) :
    Loads self clock .expirySeconds data (loadExpirySeconds self clock data).2 := by
  unfold loadExpirySeconds
  by_cases h0 : (data.getD []).length = 0
  · rw [if_pos h0]
    exact loads_span self clock .expirySeconds data 0 (by simp [fileSpan,h0])
  · rw [if_neg h0]
    by_cases h8 : (data.getD []).length ≠ 8
    · rw [if_pos h8]
      exact loads_invalid self clock .expirySeconds data (by simp)
    · rw [if_neg h8]
      exact loads_outside self _ clock _ _ [] rfl (fun _ => rfl) rfl

theorem loadFile_loads (self : EpgManager) (clock : EpgClock) (file : StateFile)
    (data : Option (List UInt8)) : Loads self clock file data (loadFile self clock file data).2 := by
  cases file with
  | clockTime => exact loadWallclockTime_loads self clock data
  | expiryTime => exact loadExpiryTime_loads self clock data
  | expirySeconds => exact loadExpirySeconds_loads self clock data
  | usedCodes =>
    show Loads self clock .usedCodes data (loadUsedCodes self data).2
    unfold loadUsedCodes
    cases h : usedCodesOfBytes (data.getD []) with
    | none => exact loads_invalid self clock .usedCodes data (fun _ => h)
    | some codes => exact loads_outside self _ clock _ _ [] rfl (fun hh => absurd rfl hh) rfl
  | key =>
    cases data with
    | none => exact loads_outside self _ clock _ _ _ rfl (fun _ => rfl) rfl
    | some bytes => exact loads_outside self _ clock _ _ [] rfl (fun _ => rfl) rfl
  | accountId =>
    cases data with
    | none => exact loads_outside self _ clock _ _ [] rfl (fun _ => rfl) rfl
    | some bytes => exact loads_outside self _ clock _ _ [] rfl (fun _ => rfl) rfl

theorem loadFile_usedCodes (self : EpgManager) (clock : EpgClock) (data : Option (List UInt8))
    (codes : List UsedCode) (h : usedCodesOfBytes (data.getD []) = some codes) :
    loadFile self clock .usedCodes data =
      (true,{ self with usedCodes := gArraySort codes },[]) := by
  show loadUsedCodes self data = _
  rw [loadUsedCodes,h]

theorem deducedSpan_unknown (self : EpgManager) (clock : EpgClock) (file : StateFile)
    (h : self.lastSaveTimeSecs = none ∨ self.lastSaveExpirySecs = none) :
    deducedSpan self clock file = none := by
  unfold deducedSpan
  split
  · next ht hx => simp [ht,hx] at h
  · rfl

theorem deducedSpan_other (self : EpgManager) (clock : EpgClock) (file : StateFile)
    (h : file ≠ .clockTime ∧ file ≠ .expirySeconds) : deducedSpan self clock file = none := by
  unfold deducedSpan
  split
  · rw [if_neg (by tauto)]
  · rfl

theorem deduceExpiryTime_asks (self : EpgManager) (clock : EpgClock) (file : StateFile)
    (data : Option (List UInt8)) :
    Asks file self.usedCodes (¬ SetsNoExpiry self clock file data)
        (usedCodesOfBytes (data.getD []) = none)
        (deduceExpiryTime (loadFile self clock file data).2.1 clock file).2 ∧
      costs (deduceExpiryTime (loadFile self clock file data).2.1 clock file).2 ≤ 1 ∧
      (deduceExpiryTime (loadFile self clock file data).2.1 clock file).1.usedCodes =
        (loadFile self clock file data).2.1.usedCodes := by
  have hl := loadFile_loads self clock file data
  rw [deduceExpiryTime_span]
  cases hd : deducedSpan (loadFile self clock file data).2.1 clock file with
  | none => exact ⟨asks_nil _ _ _ _,Nat.zero_le 1,rfl⟩
  | some span =>
    have hne : file ≠ .usedCodes := by
      intro hf
      rw [deducedSpan_other _ _ _ (by simp [hf])] at hd
      cases hd
    have ha := setExpiryTime_asks file (loadFile self clock file data).2.1 clock span
      (¬ SetsNoExpiry self clock file data) (usedCodesOfBytes (data.getD []) = none)
      (fun hx hn => hx ((hl.expiry hn).trans (hn span (Or.inr hd))))
    rw [hl.usedCodes hne] at ha
    refine ⟨ha.1,ha.2,?_⟩
    show (setExpiryTime _ _ _ _ _ _).1.usedCodes = _
    rw [setExpiryTime_state]

/-- The whole callback: what it does with its unit, what it asks for, and the
used codes it leaves. -/
structure Answers (m : EpgManager) (clock : EpgClock) (file : StateFile)
    (data : Option (List UInt8)) (out : Outcome) : Prop where
  spends : ∃ left, run spend out.2 1 = some left
  cost : costs out.2 ≤ weight file
  saves : ∀ saved forTask, .save saved forTask ∈ out.2 →
    saved.usedCodes = m.usedCodes ∧ ¬ SetsNoExpiry m clock file data
  deletes : .deleteFile .usedCodes ∈ out.2 →
    file = .usedCodes ∧ usedCodesOfBytes (data.getD []) = none
  kept : file ≠ .usedCodes → out.1.usedCodes = m.usedCodes
  loaded : file = .usedCodes → ∀ codes, usedCodesOfBytes (data.getD []) = some codes →
    out.1.usedCodes = gArraySort codes

theorem updateFromFile_answers (self : EpgManager) (clock : EpgClock) (file : StateFile)
    (data : Option (List UInt8)) :
    Answers self clock file data (updateFromFile self clock file data) := by
  have hl := loadFile_loads self clock file data
  have hd := deduceExpiryTime_asks self clock file data
  unfold updateFromFile
  by_cases hok : (loadFile self clock file data).1 = true
  · simp only [if_pos hok]
    have ha := asks_append hl.asks hd.1
    constructor
    · use 0
      rw [andThen_effects,andThen_effects,run_append,ha.balanced 1 Nat.one_pos]
      rfl
    · have hcost := hl.cost
      have hcost' := hd.2.1
      simp only [andThen_effects,costs_append]
      show _+_+0 ≤ _
      omega
    · intro saved forTask h
      apply ha.saves saved forTask
      simpa using h
    · intro h
      apply ha.deletes
      simpa using h
    · intro hf
      exact hd.2.2.trans (hl.usedCodes hf)
    · intro hf codes hc
      subst hf
      show (deduceExpiryTime _ _ _).1.usedCodes = _
      rw [hd.2.2,loadFile_usedCodes self clock data codes hc]
  · simp only [if_neg hok]
    constructor
    · exact ⟨1,hl.asks.balanced 1 Nat.one_pos⟩
    · exact (Nat.le_succ _).trans hl.cost
    · exact hl.asks.saves
    · exact hl.asks.deletes
    · exact hl.usedCodes
    · intro hf codes hc
      subst hf
      rw [loadFile_usedCodes self clock data codes hc] at hok
      exact absurd rfl hok

end EosPayg.LoadCallback
