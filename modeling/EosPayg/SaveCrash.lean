import EosPayg.ManagerCode
import EosPayg.ManagerFiles

/-!
# What a crash in the middle of a save leaves behind

A crash keeps any subset of the three operations of a save, and the directory
then mixes the old save with the new one. The credit it is worth depends on
the clock-time and the expiry seconds together. Two saves which give the same
credit at every wall clock reading are equal, or have none.
-/

set_option autoImplicit false

namespace EosPayg.SaveCrash
open EosPayg.WordArithmetic EosPayg.PaygCodes EosPayg.ManagerState EosPayg.ManagerCode
  EosPayg.ManagerFiles

theorem creditLeft_eq (t x w : ℕ) : creditLeft t x w =
    if t ≤ w ∧ 157680000 < x-(w-t) ∧ x-(w-t) < 3153600000 then 2678400 else x-(w-t) := rfl

theorem creditLeft_zero (t w : ℕ) : creditLeft t 0 w = 0 := by
  rw [creditLeft_eq,if_neg (by omega)]
  omega

def SameCredit (t x t' x' : ℕ) : Prop := (t = t' ∧ x = x') ∨ (x = 0 ∧ x' = 0)

theorem sameCredit_creditLeft {t x t' x' : ℕ} (h : SameCredit t x t' x') (w : ℕ) :
    creditLeft t x w = creditLeft t' x' w := by
  rcases h with ⟨rfl,rfl⟩ | ⟨rfl,rfl⟩
  · rfl
  · rw [creditLeft_zero,creditLeft_zero]

theorem told_apart_same_time (t x x' : ℕ) (h : x < x') :
    ∃ w ≤ t+3153600000, creditLeft t x w ≠ creditLeft t x' w := by
  by_cases hb : 157680000 < x ∧ x < 3153600000
  · refine ⟨t+(x-157680000),by omega,?_⟩
    simp only [creditLeft_eq]
    split_ifs <;> omega
  · by_cases hb' : 157680000 < x' ∧ x' < 3153600000
    · refine ⟨t+(x'-157680000),by omega,?_⟩
      simp only [creditLeft_eq]
      split_ifs <;> omega
    · refine ⟨t,by omega,?_⟩
      simp only [creditLeft_eq]
      split_ifs <;> omega

theorem told_apart_later (t x t' x' : ℕ) (ht : t < t') (h : ¬(x = 0 ∧ x' = 0)) :
    ∃ w ≤ t+3153600000, creditLeft t x w ≠ creditLeft t' x' w := by
  by_cases hb : 157680000 < x ∧ x < 3153600000
  · by_cases hx : x' = 2678400
    · refine ⟨t+(x-157680000),by omega,?_⟩
      simp only [creditLeft_eq]
      split_ifs <;> omega
    · refine ⟨t,by omega,?_⟩
      simp only [creditLeft_eq]
      split_ifs <;> omega
  · by_cases hx : x = x'
    · refine ⟨t+1,by omega,?_⟩
      simp only [creditLeft_eq]
      split_ifs <;> omega
    · refine ⟨t,by omega,?_⟩
      simp only [creditLeft_eq]
      split_ifs <;> omega

/-- Any two saves with different credit are told apart by some reading. -/
theorem told_apart {t x t' x' : ℕ} (h : ¬ SameCredit t x t' x') :
    ∃ w ≤ max t t'+3153600000, creditLeft t x w ≠ creditLeft t' x' w := by
  unfold SameCredit at h
  rcases Nat.lt_trichotomy t t' with ht | ht | ht
  · obtain ⟨w,hw,hne⟩ := told_apart_later t x t' x' ht (fun hz => h (Or.inr hz))
    exact ⟨w,by omega,hne⟩
  · subst ht
    rcases Nat.lt_trichotomy x x' with hx | hx | hx
    · obtain ⟨w,hw,hne⟩ := told_apart_same_time t x x' hx
      exact ⟨w,by omega,hne⟩
    · exact absurd (Or.inl ⟨rfl,hx⟩) h
    · obtain ⟨w,hw,hne⟩ := told_apart_same_time t x' x hx
      exact ⟨w,by omega,hne.symm⟩
  · obtain ⟨w,hw,hne⟩ := told_apart_later t' x' t x ht (fun hz => h (Or.inr hz.symm))
    exact ⟨w,by omega,hne.symm⟩

/-- The time of one save with the credit of another, when the first had none
left, the second had one second and was made later. -/
def LastSecond (t x t' x' : ℕ) : Prop := x = 0 ∧ x' = 1 ∧ t < t'

theorem lastSecond_creditLeft {t x t' x' : ℕ} (h : LastSecond t x t' x') (w : ℕ) :
    creditLeft t x' w = creditLeft t x w ∨ creditLeft t x' w = creditLeft t' x' w := by
  obtain ⟨rfl,rfl,ht⟩ := h
  simp only [creditLeft_eq]
  split_ifs <;> omega

theorem torn_told_apart_earlier {t x t' x' : ℕ} (ht : t' < t) (hx : x ≠ x') (hp : 0 < x') :
    ∃ w ≤ t+3153600000, creditLeft t x' w ≠ creditLeft t x w ∧
      creditLeft t x' w ≠ creditLeft t' x' w := by
  by_cases hb : 157680000 < x' ∧ x' < 3153600000
  · refine ⟨t',by omega,?_⟩
    simp only [creditLeft_eq]
    split_ifs <;> omega
  · by_cases hd : t'+1 < t
    · refine ⟨t'+1,by omega,?_⟩
      simp only [creditLeft_eq]
      split_ifs <;> omega
    · by_cases hy : x' = 2678400 ∧ 157680000 < x
      · refine ⟨t+1,by omega,?_⟩
        simp only [creditLeft_eq]
        split_ifs <;> omega
      · refine ⟨t,by omega,?_⟩
        simp only [creditLeft_eq]
        split_ifs <;> omega

theorem torn_told_apart_later {t x t' x' : ℕ} (ht : t < t') (hx : x ≠ x') (hp : 0 < x')
    (hl : ¬ LastSecond t x t' x') :
    ∃ w ≤ t+3153600000, creditLeft t x' w ≠ creditLeft t x w ∧
      creditLeft t x' w ≠ creditLeft t' x' w := by
  unfold LastSecond at hl
  by_cases hb : 157680000 < x' ∧ x' ≤ 3153600000
  · refine ⟨t+(x'-157680000),by omega,?_⟩
    simp only [creditLeft_eq]
    split_ifs <;> omega
  · by_cases hy : x' = 2678401 ∧ 157680000 < x
    · refine ⟨t+2,by omega,?_⟩
      simp only [creditLeft_eq]
      split_ifs <;> omega
    · refine ⟨t+1,by omega,?_⟩
      simp only [creditLeft_eq]
      split_ifs <;> omega

/-- The time of one save with the credit of another is worth neither at some
reading, unless it is one of the two, or of the last second. -/
theorem torn_told_apart {t x t' x' : ℕ} (h : ¬ SameCredit t x' t x)
    (h' : ¬ SameCredit t x' t' x') (hl : ¬ LastSecond t x t' x') :
    ∃ w ≤ t+3153600000, creditLeft t x' w ≠ creditLeft t x w ∧
      creditLeft t x' w ≠ creditLeft t' x' w := by
  unfold SameCredit at h h'
  have hx : x ≠ x' := by omega
  have hp : 0 < x' := by omega
  rcases Nat.lt_trichotomy t t' with ht | ht | ht
  · exact torn_told_apart_later ht hx hp hl
  · omega
  · exact torn_told_apart_earlier ht hx hp

def touches (done : List FileOp) (file : StateFile) : Bool := done.any (fun op => op.file = file)

/-- The save a directory holds after some operations of a new save over the
complete files of an old one. -/
def mixture (done : List FileOp) (old new : SavedState) : SavedState where
  clockTime := if touches done .clockTime then new.clockTime else old.clockTime
  expirySeconds := if touches done .expirySeconds then new.expirySeconds else old.expirySeconds
  usedCodes := if touches done .usedCodes then new.usedCodes else old.usedCodes

theorem saveOps_result (s : SavedState) (key : List UInt8) (op : FileOp)
    (h : op ∈ saveOps s) : op.file ≠ .key ∧ op.result = directoryOf s key op.file := by
  simp only [saveOps,List.mem_cons,List.not_mem_nil,or_false] at h
  rcases h with rfl | rfl | rfl
  · exact ⟨by simp [FileOp.file],rfl⟩
  · exact ⟨by simp [FileOp.file],rfl⟩
  · by_cases hu : s.usedCodes.codes = []
    · simp [hu,FileOp.file,FileOp.result,directoryOf,usedCodesImage]
    · simp [hu,FileOp.file,FileOp.result,directoryOf,usedCodesImage]

theorem applyAll_file (s : SavedState) (key : List UInt8) (done : List FileOp)
    (files : Directory) (h : done ⊆ saveOps s) (file : StateFile) :
    applyAll done files file =
      if touches done file then directoryOf s key file else files file := by
  induction done generalizing files with
  | nil => rfl
  | cons op ops ih =>
    obtain ⟨hop,hops⟩ := List.cons_subset.mp h
    have hr := (saveOps_result s key op hop).2
    show applyAll ops (op.apply files) file = _
    rw [ih (op.apply files) hops]
    by_cases ht : touches ops file = true
    · have hc : touches (op::ops) file = true := by
        simp only [touches,List.any_cons] at ht ⊢
        rw [ht,Bool.or_true]
      rw [if_pos ht,if_pos hc]
    · rw [if_neg ht]
      by_cases hf : op.file = file
      · have hc : touches (op::ops) file = true := by simp [touches,hf]
        subst hf
        rw [if_pos hc,← hr]
        exact Function.update_self _ _ _
      · have hc : ¬ touches (op::ops) file = true := by
          simp only [touches,List.any_cons] at ht ⊢
          simpa [hf] using ht
        rw [if_neg hc]
        exact Function.update_of_ne (fun hh => hf hh.symm) _ _

theorem applyAll_key (s : SavedState) (done : List FileOp) (files : Directory)
    (h : done ⊆ saveOps s) : applyAll done files .key = files .key := by
  rw [applyAll_file s [] done files h,if_neg]
  intro ht
  obtain ⟨op,hop,hf⟩ := List.any_eq_true.mp ht
  exact (saveOps_result s [] op (h hop)).1 (of_decide_eq_true hf)

theorem applyAll_mixture (done : List FileOp) (old new : SavedState) (files : Directory)
    (hf : Holds files old) (h : done ⊆ saveOps new) :
    Holds (applyAll done files) (mixture done old new) := by
  obtain ⟨ht,hx,hu⟩ := hf
  refine ⟨?_,?_,?_⟩ <;> rw [applyAll_file new [] done files h] <;>
    simp only [mixture,directoryOf] <;> split_ifs <;> first | rfl | assumption

def credit (s : SavedState) (w : ℕ) : ℕ := creditLeft s.clockTime.toNat s.expirySeconds.toNat w

theorem worth_boot (w : UInt64) (s : SavedState) :
    worth ⟨0, w, true⟩ (creditOnLoad s.clockTime s.expirySeconds w) = credit s w.toNat := by
  have hb := word_lt (creditOnLoad s.clockTime s.expirySeconds w)
  have hc := creditOnLoad_toNat s.clockTime s.expirySeconds w
  have he : expiryAfter ⟨0, w, true⟩ 0 (creditOnLoad s.clockTime s.expirySeconds w) =
      saturatingAdd 0 (creditOnLoad s.clockTime s.expirySeconds w) :=
    expiryAfter_of_source _ _ _ rfl
  unfold worth credit
  rw [he,saturatingAdd_toNat,UInt64.toNat_zero]
  omega

/-- The directory holds a version as a whole, as far as a new manager can
tell. -/
def Survives (m v : SavedState) : Prop :=
  m.usedCodes = v.usedCodes ∧
    SameCredit m.clockTime.toNat m.expirySeconds.toNat v.clockTime.toNat v.expirySeconds.toNat

def SurvivesLastSecond (m a b : SavedState) : Prop :=
  m.usedCodes = a.usedCodes ∧ m.usedCodes = b.usedCodes ∧ m.clockTime = a.clockTime ∧
    m.expirySeconds = b.expirySeconds ∧
    LastSecond a.clockTime.toNat a.expirySeconds.toNat b.clockTime.toNat b.expirySeconds.toNat

def Whole (m old new : SavedState) : Prop :=
  Survives m old ∨ Survives m new ∨ SurvivesLastSecond m old new ∨ SurvivesLastSecond m new old

instance (t x t' x' : ℕ) : Decidable (SameCredit t x t' x') := inferInstanceAs (Decidable (_ ∨ _))

instance (t x t' x' : ℕ) : Decidable (LastSecond t x t' x') := inferInstanceAs (Decidable (_ ∧ _))

instance (m s : SavedState) : Decidable (Survives m s) := inferInstanceAs (Decidable (_ ∧ _))

instance (m a b : SavedState) : Decidable (SurvivesLastSecond m a b) :=
  inferInstanceAs (Decidable (_ ∧ _))

instance (m old new : SavedState) : Decidable (Whole m old new) :=
  inferInstanceAs (Decidable (_ ∨ _))

def Taken (m old new : SavedState) : Prop := ∀ w : UInt64,
  (m.usedCodes = old.usedCodes ∧ credit m w.toNat = credit old w.toNat) ∨
    (m.usedCodes = new.usedCodes ∧ credit m w.toNat = credit new w.toNat)

theorem whole_taken (m old new : SavedState) (h : Whole m old new) : Taken m old new := by
  intro w
  rcases h with ⟨hu,hc⟩ | ⟨hu,hc⟩ | ⟨hu,hu',ht,hx,hl⟩ | ⟨hu,hu',ht,hx,hl⟩
  · exact Or.inl ⟨hu,sameCredit_creditLeft hc _⟩
  · exact Or.inr ⟨hu,sameCredit_creditLeft hc _⟩
  · unfold credit
    rw [ht,hx]
    rcases lastSecond_creditLeft hl w.toNat with hc | hc
    · exact Or.inl ⟨hu,hc⟩
    · exact Or.inr ⟨hu',hc⟩
  · unfold credit
    rw [ht,hx]
    rcases lastSecond_creditLeft hl w.toNat with hc | hc
    · exact Or.inr ⟨hu,hc⟩
    · exact Or.inl ⟨hu',hc⟩

theorem taken_symm {m a b : SavedState} (h : Taken m a b) : Taken m b a :=
  fun w => (h w).symm

theorem word_reading {w : ℕ} (hw : w < 2^64) : (UInt64.ofNat w).toNat = w := by
  rw [UInt64.toNat_ofNat']
  omega

theorem taken_survives {m a b : SavedState} (h : Taken m a b)
    (hm : m.clockTime.toNat < 2^63) (hb : b.clockTime.toNat < 2^63)
    (hu : m.usedCodes ≠ a.usedCodes) : Survives m b := by
  have hall : ∀ w : UInt64, m.usedCodes = b.usedCodes ∧ credit m w.toNat = credit b w.toNat :=
    fun w => (h w).resolve_left (fun hh => hu hh.1)
  refine ⟨(hall 0).1,?_⟩
  by_contra hc
  obtain ⟨w,hw,hne⟩ := told_apart hc
  have hr := (hall (UInt64.ofNat w)).2
  rw [word_reading (by omega)] at hr
  exact hne hr

theorem taken_torn {m a b : SavedState} (h : Taken m a b)
    (ha : a.clockTime.toNat < 2^63) (hb : b.clockTime.toNat < 2^63)
    (ht : m.clockTime = a.clockTime) (hx : m.expirySeconds = b.expirySeconds) :
    Survives m a ∨ Survives m b ∨ SurvivesLastSecond m a b := by
  have hm : m.clockTime.toNat < 2^63 := by rwa [ht]
  by_cases hua : m.usedCodes = a.usedCodes
  · by_cases hub : m.usedCodes = b.usedCodes
    · by_contra hn
      have hsa : ¬ SameCredit a.clockTime.toNat b.expirySeconds.toNat a.clockTime.toNat
          a.expirySeconds.toNat := by
        intro hc
        rw [← ht,← hx] at hc
        exact hn (Or.inl ⟨hua,ht ▸ hc⟩)
      have hsb : ¬ SameCredit a.clockTime.toNat b.expirySeconds.toNat b.clockTime.toNat
          b.expirySeconds.toNat := by
        intro hc
        exact hn (Or.inr (Or.inl ⟨hub,by rwa [ht,hx]⟩))
      obtain ⟨w,hw,hna,hnb⟩ := torn_told_apart hsa hsb
        (fun hl => hn (Or.inr (Or.inr ⟨hua,hub,ht,hx,hl⟩)))
      have hr := h (UInt64.ofNat w)
      rw [word_reading (by omega)] at hr
      unfold credit at hr
      rw [ht,hx] at hr
      rcases hr with hr | hr
      · exact hna hr.2
      · exact hnb hr.2
    · exact Or.inl (taken_survives (taken_symm h) hm ha hub)
  · exact Or.inr (Or.inl (taken_survives h hm hb hua))

theorem taken_untorn {m a b : SavedState} (h : Taken m a b)
    (ha : a.clockTime.toNat < 2^63) (hb : b.clockTime.toNat < 2^63)
    (ht : m.clockTime = a.clockTime) (hx : m.expirySeconds = a.expirySeconds) :
    Survives m a ∨ Survives m b := by
  by_cases hua : m.usedCodes = a.usedCodes
  · exact Or.inl ⟨hua,Or.inl ⟨by rw [ht],by rw [hx]⟩⟩
  · exact Or.inr (taken_survives h (by rwa [ht]) hb hua)

theorem mixture_taken_iff (done : List FileOp) (old new : SavedState)
    (ho : old.clockTime.toNat < 2^63) (hn : new.clockTime.toNat < 2^63) :
    Taken (mixture done old new) old new ↔ Whole (mixture done old new) old new := by
  refine ⟨fun h => ?_,whole_taken _ _ _⟩
  unfold Whole
  by_cases ht : touches done .clockTime = true <;> by_cases hx : touches done .expirySeconds = true
  · have := taken_untorn (taken_symm h) hn ho (by simp [mixture,ht]) (by simp [mixture,hx])
    tauto
  · have := taken_torn (taken_symm h) hn ho (by simp [mixture,ht]) (by simp [mixture,hx])
    tauto
  · have := taken_torn h ho hn (by simp [mixture,ht]) (by simp [mixture,hx])
    tauto
  · have := taken_untorn h ho hn (by simp [mixture,ht]) (by simp [mixture,hx])
    tauto

/-- A crash is invisible at every clock reading exactly when the directory
holds the old save or the new one as a whole, saves without credit counting as
the same, or mixes them in the last second of credit. -/
theorem crash_atomic_iff (self : EpgManager) (clock : EpgClock) (old : SavedState)
    (files : Directory) (key : List UInt8) (done : List FileOp)
    (hf : Holds files old) (hk : files .key = some key)
    (hd : done ⊆ saveOps (saveState self clock))
    (ho : old.clockTime.toNat < 2^63) (hn : clock.wallclockTime.toNat < 2^63) :
    (∀ c, seen c (applyAll done files) = seen c files ∨
        seen c (applyAll done files) =
          seen c (applyAll (saveOps (saveState self clock)) files)) ↔
      Whole (mixture done old (saveState self clock)) old (saveState self clock) := by
  have hm := applyAll_mixture done old _ files hf hd
  have hw := saveOps_holds (saveState self clock) files
  have hkm := (applyAll_key _ done files hd).trans hk
  have hkw := (applyAll_key (saveState self clock) _ files (List.Subset.refl _)).trans hk
  rw [← mixture_taken_iff done old (saveState self clock) ho hn]
  constructor
  · intro h w
    have hc := h ⟨0, w, true⟩
    simp only [seen_saved _ _ _ _ hm hkm,seen_saved _ _ _ _ hf hk,seen_saved _ _ _ _ hw hkw,
      worth_boot,Option.some.injEq,Prod.mk.injEq] at hc
    exact hc
  · intro h c
    have hword : ∀ m v : SavedState, credit m c.wallclockTime.toNat =
        credit v c.wallclockTime.toNat →
        creditOnLoad m.clockTime m.expirySeconds c.wallclockTime =
          creditOnLoad v.clockTime v.expirySeconds c.wallclockTime := by
      intro m v hc
      rw [word_ext_iff,creditOnLoad_toNat,creditOnLoad_toNat]
      exact hc
    rw [seen_saved _ _ _ _ hm hkm,seen_saved _ _ _ _ hf hk,seen_saved _ _ _ _ hw hkw]
    rcases h c.wallclockTime with ⟨hu,hc⟩ | ⟨hu,hc⟩
    · exact Or.inl (by rw [hu,hword _ _ hc])
    · exact Or.inr (by rw [hu,hword _ _ hc])

def unpaid : SavedState := ⟨4000, 0, noUsedCodes⟩

def paidManager : EpgManager :=
  { freshManager with usedCodes := gArraySort [⟨1, .period1Day⟩], expiryTimeSecs := 86500 }

def paidSave : SavedState := saveState paidManager ⟨100, 5000, true⟩

def unpaidFiles : Directory := directoryOf unpaid (List.replicate 64 0)

/-- Nothing is lost when only the time was replaced, for there was no credit; when only the
credit was, the day is seen without its code. -/
theorem crash_atomic_example :
    (∀ c, seen c (applyAll [.replaceContents .clockTime (wordBytes 5000)] unpaidFiles) =
          seen c unpaidFiles ∨
        seen c (applyAll [.replaceContents .clockTime (wordBytes 5000)] unpaidFiles) =
          seen c (applyAll (saveOps paidSave) unpaidFiles)) ∧
      ¬ ∀ c, seen c (applyAll [.replaceContents .expirySeconds (wordBytes 86400)] unpaidFiles) =
          seen c unpaidFiles ∨
        seen c (applyAll [.replaceContents .expirySeconds (wordBytes 86400)] unpaidFiles) =
          seen c (applyAll (saveOps paidSave) unpaidFiles) := by
  have hiff (done : List FileOp) (hd : done ⊆ saveOps paidSave) :=
    crash_atomic_iff paidManager ⟨100, 5000, true⟩ unpaid unpaidFiles (List.replicate 64 0) done
      (directoryOf_holds _ _) rfl hd (by decide) (by decide)
  constructor
  · exact (hiff _ (by decide +kernel)).mpr (by decide +kernel)
  · exact (hiff _ (by decide +kernel)).not.mpr (by decide +kernel)

/-- With only its expiry seconds written, the day is credited and its code can
be entered again. -/
theorem credited_and_reusable :
    ¬ ∀ done, done ⊆ saveOps paidSave →
      ∀ c, seen c (applyAll done unpaidFiles) = seen c unpaidFiles ∨
        seen c (applyAll done unpaidFiles) =
          seen c (applyAll (saveOps paidSave) unpaidFiles) := by
  intro h
  have hc := h [.replaceContents .expirySeconds (wordBytes 86400)] (by decide +kernel)
    ⟨20, 4000, true⟩
  revert hc
  decide +kernel

end EosPayg.SaveCrash
