import Mathlib.Tactic

/-!
# A map kept in an array of slots

Each slot is free or holds a record under its key. The records represent a
finite map as long as no two slots hold the same key. A search goes through the
slots from the first; a record goes to the slot that holds its key or, failing
that, to the first free one.
-/

set_option autoImplicit false

namespace EosPayg.SlotArray

variable {K R : Type*} {key : R → K} {slots : List (Option R)} {m : K → Option R}

/-- The slots hold the records of a map, each once. -/
structure Represents (key : R → K) (slots : List (Option R)) (m : K → Option R) : Prop where
  distinct : ∀ (i j : ℕ) (r s : R), slots[i]? = some (some r) → slots[j]? = some (some s) →
    key r = key s → i = j
  stored : ∀ k r, m k = some r ↔ key r = k ∧ ∃ i : ℕ, slots[i]? = some (some r)

theorem exists_free (h : Represents key slots m) (keys : Finset K)
    (hkeys : ∀ k, m k ≠ none → k ∈ keys) (hcard : keys.card < slots.length) :
    ∃ slot ∈ slots, slot.isNone := by
  by_contra hno
  have hfull (i : Fin slots.length) : ∃ r, slots[i]? = some (some r) := by
    cases hs : slots[i] with
    | none => exact absurd ⟨none,hs ▸ List.getElem_mem i.2,rfl⟩ hno
    | some r => exact ⟨r,by simp [hs]⟩
  choose f hf using hfull
  have hmem (i : Fin slots.length) : key (f i) ∈ keys := by
    refine hkeys _ ?_
    rw [(h.stored _ (f i)).mpr ⟨rfl,i,hf i⟩]
    exact Option.some_ne_none _
  have hinj : Function.Injective (fun i => key (f i)) := fun i j hij =>
    Fin.ext (h.distinct i j _ _ (hf i) (hf j) hij)
  have hle := Finset.card_le_card_of_injOn (s := Finset.univ) (fun i => key (f i))
    (fun i _ => hmem i) hinj.injOn
  rw [Finset.card_univ,Fintype.card_fin] at hle
  omega

theorem getElem_set_some {i : ℕ} {slot slot' : Option R} (hi : slots[i]? = some slot) (j : ℕ)
    (r : R) : (slots.set i slot')[j]? = some (some r) ↔
      i = j ∧ slot' = some r ∨ i ≠ j ∧ slots[j]? = some (some r) := by
  have hlt : i < slots.length := (List.getElem?_eq_some_iff.mp hi).1
  by_cases hij : i = j
  · subst hij
    rw [List.getElem?_set_self hlt]
    simp
  · rw [List.getElem?_set_ne hij]
    simp [hij]

variable [DecidableEq K]

def holdsKey (key : R → K) (k : K) (slot : Option R) : Bool := slot.any (fun r => decide (key r = k))

/-- The slot in which a search for a key or a free slot ends. The first free
slot met so far is kept until the key is found. -/
def slotFor (key : R → K) (k : K) : List (Option R) → ℕ → Option ℕ → Option ℕ
  | [], _, free => free
  | slot::slots, i, free =>
    if holdsKey key k slot then some i
    else slotFor key k slots (i+1) (if free.isNone && slot.isNone then some i else free)

theorem holdsKey_some (key : R → K) (k : K) (slot : Option R) (h : holdsKey key k slot = true) :
    ∃ r, slot = some r ∧ key r = k := by
  cases slot with
  | none => cases h
  | some r => exact ⟨r,rfl,of_decide_eq_true h⟩

theorem slotFor_eq (key : R → K) (k : K) (slots : List (Option R)) (i : ℕ) (free : Option ℕ) :
    slotFor key k slots i free =
      ((slots.findIdx? (holdsKey key k)).map (·+i)).or
        (free.or ((slots.findIdx? Option.isNone).map (·+i))) := by
  induction slots generalizing i free with
  | nil => simp [slotFor]
  | cons slot slots ih =>
    have hshift : (fun x => x+(i+1)) = (·+i) ∘ (fun x => x+1) := by
      funext x
      simp [Nat.add_assoc,Nat.add_comm 1 i]
    rw [slotFor,List.findIdx?_cons,List.findIdx?_cons]
    by_cases h : holdsKey key k slot = true
    · simp [h]
    · rw [if_neg h,if_neg h,ih,Option.map_map,← hshift]
      cases slot <;> cases free <;> simp [hshift]

theorem findIdx_holdsKey {k : K} {i : ℕ} (h : slots.findIdx? (holdsKey key k) = some i) :
    ∃ r, slots[i]? = some (some r) ∧ key r = k := by
  obtain ⟨hi,hk,-⟩ := List.findIdx?_eq_some_iff_getElem.mp h
  obtain ⟨r,hr,hkey⟩ := holdsKey_some key k _ hk
  exact ⟨r,by rw [List.getElem?_eq_getElem hi,hr],hkey⟩

theorem any_holdsKey (h : Represents key slots m) (k : K) :
    slots.any (holdsKey key k) = (m k).isSome := by
  rw [Bool.eq_iff_iff,List.any_eq_true,Option.isSome_iff_exists]
  constructor
  · rintro ⟨slot,hm,hk⟩
    obtain ⟨r,rfl,hkey⟩ := holdsKey_some key k slot hk
    obtain ⟨i,hi⟩ := List.mem_iff_getElem?.mp hm
    exact ⟨r,(h.stored k r).mpr ⟨hkey,i,hi⟩⟩
  · rintro ⟨r,hr⟩
    obtain ⟨hkey,i,hi⟩ := (h.stored k r).mp hr
    exact ⟨some r,List.mem_of_getElem? hi,decide_eq_true hkey⟩

theorem find_holdsKey (h : Represents key slots m) (k : K) :
    (slots.find? (holdsKey key k)).join = m k := by
  cases hf : slots.find? (holdsKey key k) with
  | none =>
    have hno : slots.any (holdsKey key k) = false := by
      rw [List.any_eq_false]
      exact List.find?_eq_none.mp hf
    rw [any_holdsKey h k] at hno
    exact (Option.not_isSome_iff_eq_none.mp (by simp [hno])).symm
  | some slot =>
    obtain ⟨r,rfl,hk⟩ := holdsKey_some key k slot (List.find?_some hf)
    obtain ⟨i,hi⟩ := List.mem_iff_getElem?.mp (List.mem_of_find?_eq_some hf)
    exact ((h.stored k r).mpr ⟨hk,i,hi⟩).symm

theorem findIdx_none (h : Represents key slots m) {k : K} :
    slots.findIdx? (holdsKey key k) = none ↔ m k = none := by
  rw [← Option.not_isSome_iff_eq_none (o := m k),← any_holdsKey h k,List.findIdx?_eq_none_iff]
  simp

/-- A record put into the slot of its key, or into a free slot when there is
none, is all that changes. -/
theorem represents_set (h : Represents key slots m) {i : ℕ} {slot : Option R} {r : R}
    (hi : slots[i]? = some slot) (hsame : ∀ s, slot = some s → key s = key r)
    (hfree : slot = none → m (key r) = none) :
    Represents key (slots.set i (some r)) (Function.update m (key r) (some r)) := by
  -- no other slot holds the key of the record
  have huniq (j : ℕ) (s : R) (hj : i ≠ j) (hs : slots[j]? = some (some s)) : key s ≠ key r := by
    intro he
    cases slot with
    | none =>
      have hm := (h.stored (key r) s).mpr ⟨he,j,hs⟩
      rw [hfree rfl] at hm
      cases hm
    | some u => exact hj (h.distinct i j u s hi hs ((hsame u rfl).trans he.symm))
  constructor
  · intro a b u v ha hb huv
    rcases (getElem_set_some hi a u).mp ha with ⟨rfl,hu⟩ | ⟨hia,ha⟩
    · cases hu
      rcases (getElem_set_some hi b v).mp hb with ⟨hib,-⟩ | ⟨hib,hb⟩
      · exact hib
      · exact absurd huv.symm (huniq b v hib hb)
    · rcases (getElem_set_some hi b v).mp hb with ⟨-,hv⟩ | ⟨hib,hb⟩
      · cases hv
        exact absurd huv (huniq a u hia ha)
      · exact h.distinct a b u v ha hb huv
  · intro k u
    simp only [getElem_set_some hi]
    by_cases hk : k = key r
    · subst hk
      rw [Function.update_self]
      constructor
      · intro hu
        cases hu
        exact ⟨rfl,i,Or.inl ⟨rfl,rfl⟩⟩
      · rintro ⟨hku,j,⟨-,hu⟩ | ⟨hij,hj⟩⟩
        · exact hu
        · exact absurd hku (huniq j u hij hj)
    · rw [Function.update_of_ne hk,h.stored]
      refine and_congr_right fun hku => exists_congr fun j => ⟨fun hj => Or.inr ⟨?_,hj⟩,?_⟩
      · rintro rfl
        rw [hi] at hj
        exact hk (hku.symm.trans (hsame u (Option.some.inj hj)))
      · rintro (⟨-,hu⟩ | ⟨-,hj⟩)
        · cases hu
          exact absurd hku.symm hk
        · exact hj

theorem represents_free (h : Represents key slots m) {i : ℕ} {r : R}
    (hi : slots[i]? = some (some r)) :
    Represents key (slots.set i none) (Function.update m (key r) none) := by
  have hold (j : ℕ) (s : R) :
      (slots.set i none)[j]? = some (some s) ↔ i ≠ j ∧ slots[j]? = some (some s) := by
    rw [getElem_set_some hi]
    simp
  constructor
  · intro a b u v ha hb huv
    exact h.distinct a b u v ((hold a u).mp ha).2 ((hold b v).mp hb).2 huv
  · intro k u
    simp only [hold]
    by_cases hk : k = key r
    · subst hk
      rw [Function.update_self]
      refine iff_of_false (Option.some_ne_none u).symm ?_
      rintro ⟨hku,j,hij,hs⟩
      exact hij (h.distinct i j r u hi hs hku.symm)
    · rw [Function.update_of_ne hk,h.stored]
      refine and_congr_right fun hku => exists_congr fun j => ⟨fun hj => ⟨?_,hj⟩,fun hj => hj.2⟩
      rintro rfl
      rw [hi] at hj
      cases hj
      exact hk hku.symm

theorem slotFor_some (h : Represents key slots m) (keys : Finset K)
    (hkeys : ∀ k, m k ≠ none → k ∈ keys) (hcard : keys.card ≤ slots.length) {k : K}
    (hk : k ∈ keys) :
    ∃ (i : ℕ) (slot : Option R), slotFor key k slots 0 none = some i ∧ slots[i]? = some slot ∧
      (∀ s, slot = some s → key s = k) ∧ (slot = none → m k = none) := by
  rw [slotFor_eq]
  simp only [Nat.add_zero,Option.map_id',Option.none_or]
  cases hfind : slots.findIdx? (holdsKey key k) with
  | some i =>
    obtain ⟨r,hr,hkr⟩ := findIdx_holdsKey hfind
    refine ⟨i,some r,rfl,hr,?_,nofun⟩
    intro s hs
    cases hs
    exact hkr
  | none =>
    have hmk : m k = none := (findIdx_none h).mp hfind
    have hrest : ∀ k', m k' ≠ none → k' ∈ keys.erase k := by
      intro k' hk'
      refine Finset.mem_erase.mpr ⟨?_,hkeys k' hk'⟩
      rintro rfl
      exact hk' hmk
    have hlt : (keys.erase k).card < slots.length := by
      have := Finset.card_pos.mpr ⟨k,hk⟩
      rw [Finset.card_erase_of_mem hk]
      omega
    have hfree := List.findIdx?_eq_some_of_exists (exists_free h _ hrest hlt)
    obtain ⟨hi,hnone,-⟩ := List.findIdx?_eq_some_iff_getElem.mp hfree
    refine ⟨_,none,hfree,?_,nofun,fun _ => hmk⟩
    rw [List.getElem?_eq_getElem hi,Option.isNone_iff_eq_none.mp hnone]

/-- A search ends in the slot of its key, or in a free one when no slot holds it. -/
theorem slotFor_cases {k : K} {j : ℕ} (h : slotFor key k slots 0 none = some j) :
    (∃ r, slots[j]? = some (some r) ∧ key r = k) ∨
      slots[j]? = some none ∧ ∀ (i : ℕ) (r : R), slots[i]? = some (some r) → key r ≠ k := by
  rw [slotFor_eq] at h
  simp only [Nat.add_zero,Option.map_id',Option.none_or] at h
  cases hfind : slots.findIdx? (holdsKey key k) with
  | some i =>
    rw [hfind] at h
    cases h
    exact Or.inl (findIdx_holdsKey hfind)
  | none =>
    rw [hfind,Option.none_or] at h
    obtain ⟨hj,hnone,-⟩ := List.findIdx?_eq_some_iff_getElem.mp h
    refine Or.inr ⟨?_,fun i r hi hkey => ?_⟩
    · rw [List.getElem?_eq_getElem hj,Option.isNone_iff_eq_none.mp hnone]
    · have hno := List.findIdx?_eq_none_iff.mp hfind _ (List.mem_of_getElem? hi)
      simp [holdsKey,hkey] at hno

end EosPayg.SlotArray
