import Mathlib.Tactic

/-!
# A ledger of tokens that are spent once

A ledger remembers which tokens were spent and until when it is paid. A token
offered for the first time is spent and extends the paid time from its later
end, up to a cap; anything else offered changes nothing.
-/

set_option autoImplicit false

namespace EosPayg.TokenLedger

variable {T : Type*} [DecidableEq T]

structure Ledger (T : Type*) where
  spent : Finset T
  expiry : ℕ

/-- What is presented at the counter, and when; `none` is no token at all. -/
structure Entry (T : Type*) where
  now : ℕ
  token : Option T

variable (worth : T → ℕ) (cap : ℕ)

def credit (l : Ledger T) (now : ℕ) (t : T) : Ledger T :=
  ⟨insert t l.spent, min cap (max now l.expiry+worth t)⟩

def offer (l : Ledger T) (e : Entry T) : Option T × Ledger T :=
  match e.token with
  | none => (none,l)
  | some t => if t ∈ l.spent then (none,l) else (some t,credit worth cap l e.now t)

def offers : List (Entry T) → Ledger T → List (Option T) × Ledger T
  | [], l => ([],l)
  | e::es, l =>
    ((offer worth cap l e).1::(offers es (offer worth cap l e).2).1,
      (offers es (offer worth cap l e).2).2)

def credited (answers : List (Option T)) : List T := answers.filterMap id

variable {worth cap}

theorem offer_spent (l : Ledger T) (e : Entry T) :
    (offer worth cap l e).2.spent = l.spent ∪ (offer worth cap l e).1.toFinset := by
  unfold offer
  cases e.token with
  | none => simp
  | some t =>
    by_cases ht : t ∈ l.spent
    · simp [ht]
    · simp only [ht,if_false,credit,Option.toFinset_some]
      rw [Finset.union_comm]
      rfl

theorem offer_fresh {l : Ledger T} {e : Entry T} {t : T}
    (h : (offer worth cap l e).1 = some t) : t ∉ l.spent := by
  unfold offer at h
  cases he : e.token with
  | none => simp [he] at h
  | some u =>
    by_cases hu : u ∈ l.spent
    · simp [he,hu] at h
    · have htu : u = t := by simpa [he,hu] using h
      rwa [← htu]

theorem offers_spent (es : List (Entry T)) (l : Ledger T) :
    (offers worth cap es l).2.spent =
      l.spent ∪ (credited (offers worth cap es l).1).toFinset := by
  induction es generalizing l with
  | nil => simp [offers,credited]
  | cons e es ih =>
    show (offers worth cap es (offer worth cap l e).2).2.spent = _
    rw [ih,offer_spent]
    cases h : (offer worth cap l e).1 with
    | none => simp [offers,credited,h]
    | some t =>
      simp only [offers,credited,h,List.filterMap_cons,id,List.toFinset_cons,
        Option.toFinset_some]
      rw [Finset.union_assoc]
      rfl

/-- No token is credited twice, and none that was spent before. -/
theorem credited_nodup (es : List (Entry T)) (l : Ledger T) :
    (credited (offers worth cap es l).1).Nodup ∧
      ∀ t ∈ credited (offers worth cap es l).1, t ∉ l.spent := by
  induction es generalizing l with
  | nil => simp [offers,credited]
  | cons e es ih =>
    obtain ⟨hn,hf⟩ := ih (offer worth cap l e).2
    have hsub : l.spent ⊆ (offer worth cap l e).2.spent := by
      rw [offer_spent]
      exact Finset.subset_union_left
    cases h : (offer worth cap l e).1 with
    | none =>
      have hc : credited (offers worth cap (e::es) l).1 =
          credited (offers worth cap es (offer worth cap l e).2).1 := by
        simp [offers,credited,h]
      rw [hc]
      exact ⟨hn,fun t ht hs => hf t ht (hsub hs)⟩
    | some u =>
      have hc : credited (offers worth cap (e::es) l).1 =
          u::credited (offers worth cap es (offer worth cap l e).2).1 := by
        simp [offers,credited,h]
      have hu : u ∈ (offer worth cap l e).2.spent := by
        rw [offer_spent,h]
        simp
      rw [hc]
      constructor
      · exact List.nodup_cons.mpr ⟨fun hm => hf u hm hu,hn⟩
      · intro t ht hs
        rcases List.mem_cons.mp ht with hh | hh
        · exact offer_fresh (hh ▸ h) hs
        · exact hf t hh (hsub hs)

variable (worth cap) in
def credits : List (ℕ × T) → Ledger T → Ledger T
  | [], l => l
  | e::es, l => credits es (credit worth cap l e.1 e.2)

theorem credits_spent (es : List (ℕ × T)) (l : Ledger T) :
    (credits worth cap es l).spent = l.spent ∪ (es.map Prod.snd).toFinset := by
  induction es generalizing l with
  | nil => exact (Finset.union_empty _).symm
  | cons e es ih =>
    rw [credits,ih,List.map_cons,List.toFinset_cons]
    show insert e.2 l.spent ∪ _ = _
    rw [Finset.insert_union,Finset.union_insert]

/-- While nothing runs out in between, when and in which order they are credited does
not matter. -/
theorem credits_expiry (es : List (ℕ × T)) (l : Ledger T) (hl : l.expiry ≤ cap)
    (h : ∀ e ∈ es, e.1 ≤ l.expiry) :
    (credits worth cap es l).expiry =
      min cap (l.expiry+(es.map (fun e => worth e.2)).sum) := by
  induction es generalizing l with
  | nil => exact (min_eq_right hl).symm
  | cons e es ih =>
    obtain ⟨he,hes⟩ := List.forall_mem_cons.mp h
    have hfirst : (credit worth cap l e.1 e.2).expiry = min cap (l.expiry+worth e.2) := by
      show min cap (max e.1 l.expiry+worth e.2) = _
      rw [max_eq_right he]
    have hgrown : l.expiry ≤ (credit worth cap l e.1 e.2).expiry := by
      rw [hfirst]
      exact le_min hl (Nat.le_add_right _ _)
    rw [credits,ih _ (hfirst.trans_le (min_le_left _ _)) (fun f hf => (hes f hf).trans hgrown),
      hfirst,List.map_cons,List.sum_cons]
    omega

end EosPayg.TokenLedger
