import Mathlib.Tactic

/-!
# Counting events in a window with a ring of fixed size

A ring of `n` slots keeps the newest `n` of a list of times, newest first, and
fills the rest with one value. While the filler lies outside the window, and
the times never decrease from one event to the next, the ring is full of
window times exactly when the whole list holds `n` of them.
-/

set_option autoImplicit false

namespace EosPayg.SlidingWindow

variable {α : Type*}

def ring (z : α) (n : ℕ) (xs : List α) : List α := (xs ++ List.replicate n z).take n

theorem ring_nil (z : α) (n : ℕ) : ring z n [] = List.replicate n z := by
  simp [ring]

@[simp]
theorem ring_length (z : α) (n : ℕ) (xs : List α) : (ring z n xs).length = n := by
  simp [ring]

theorem ring_take (z : α) (n m : ℕ) (xs : List α) (h : n ≤ m) :
    (ring z m xs).take n = ring z n xs := by
  simp only [ring,List.take_take,List.take_append,List.take_replicate,List.length_take]
  rw [min_eq_left h]
  congr 2
  omega

theorem ring_cons (z x : α) (n : ℕ) (xs : List α) :
    ring z (n+1) (x::xs) = x::ring z n xs := by
  have h : ring z (n+1) (x::xs) = x::(ring z (n+1) xs).take n := by
    simp [ring,List.take_take]
  rw [h,ring_take z n (n+1) xs (by omega)]

theorem ring_push (z x : α) (n : ℕ) (xs : List α) :
    x::(ring z (n+1) xs).take n = ring z (n+1) (x::xs) := by
  rw [ring_cons,ring_take z n (n+1) xs (by omega)]

theorem mem_ring {z y : α} {n : ℕ} {xs : List α} (h : y ∈ ring z n xs) : y ∈ xs ∨ y = z := by
  rcases List.mem_append.mp (List.mem_of_mem_take h) with h | h
  · exact Or.inl h
  · exact Or.inr (List.eq_of_mem_replicate h)

/-- A ring is full of window times exactly when the whole list has as many. A
time newer than one in the window must itself lie in the window. -/
theorem ring_full_iff (p : α → Bool) {z : α} (hz : p z = false) (n : ℕ) (xs : List α)
    (hs : xs.Pairwise (fun x y => p y = true → p x = true)) :
    n ≤ (ring z n xs).countP p ↔ n ≤ xs.countP p := by
  induction xs generalizing n with
  | nil =>
    have h : (ring z n []).countP p = 0 := by
      apply List.countP_eq_zero.mpr
      intro x hx
      rw [ring_nil] at hx
      rw [List.eq_of_mem_replicate hx,hz]
      exact Bool.false_ne_true
    rw [h]
    rfl
  | cons x xs ih =>
    obtain ⟨hx,hs⟩ := List.pairwise_cons.mp hs
    cases n with
    | zero => simp
    | succ n =>
      rw [ring_cons]
      by_cases hp : p x = true
      · rw [List.countP_cons_of_pos hp,List.countP_cons_of_pos hp]
        have := ih n hs
        omega
      · have hout : ∀ y ∈ xs, ¬ p y = true := fun y hy h => hp (hx y hy h)
        have hlist : xs.countP p = 0 := List.countP_eq_zero.mpr hout
        have hring : (ring z n xs).countP p = 0 := by
          apply List.countP_eq_zero.mpr
          intro y hy
          rcases mem_ring hy with hm | hm
          · exact hout y hm
          · rw [hm,hz]
            exact Bool.false_ne_true
        rw [List.countP_cons_of_neg hp,List.countP_cons_of_neg hp,hlist,hring]

/-- Every time is at least `w` after those `n` places further back. -/
def Spaced (n w : ℕ) : List ℕ → Prop
  | [] => True
  | x::xs => (∀ y ∈ xs.drop (n-1), y+w ≤ x) ∧ Spaced n w xs

theorem spaced_drop {n w : ℕ} {xs : List ℕ} (h : Spaced n w xs) (k : ℕ) :
    Spaced n w (xs.drop k) := by
  induction k generalizing xs with
  | zero => exact h
  | succ k ih =>
    cases xs with
    | nil => exact h
    | cons x xs => exact ih h.2

theorem spaced_head {n w lo : ℕ} (hn : 0 < n) (q : ℕ) {x : ℕ} {xs : List ℕ}
    (h : Spaced n w (x::xs)) (hlo : ∀ y ∈ x::xs, lo ≤ y) (hq : n*q < (x::xs).length) :
    lo+w*q ≤ x := by
  induction q generalizing x xs with
  | zero => exact hlo x List.mem_cons_self
  | succ q ih =>
    rw [Nat.mul_succ,List.length_cons] at hq
    have hlen : n*q < (xs.drop (n-1)).length := by
      rw [List.length_drop]
      omega
    cases hd : xs.drop (n-1) with
    | nil => simp [hd] at hlen
    | cons y ys =>
      have hmem : y ∈ xs.drop (n-1) := by
        rw [hd]
        exact List.mem_cons_self
      have hspaced : Spaced n w (y::ys) := hd ▸ spaced_drop h.2 (n-1)
      have hbelow : ∀ z ∈ y::ys, lo ≤ z := fun z hz =>
        hlo z (List.mem_cons_of_mem _ (List.mem_of_mem_drop (hd ▸ hz)))
      have hone := h.1 y hmem
      have hrest := ih hspaced hbelow (hd ▸ hlen)
      rw [Nat.mul_succ]
      omega

/-- So a span of time holds at most `n` of them for every `w` begun. -/
theorem spaced_length {n w lo span : ℕ} (hn : 0 < n) (hw : 0 < w) {xs : List ℕ}
    (h : Spaced n w xs) (hin : ∀ x ∈ xs, lo ≤ x ∧ x ≤ lo+span) :
    xs.length ≤ n*(span/w+1) := by
  by_contra hlong
  cases xs with
  | nil => exact hlong (Nat.zero_le _)
  | cons x xs =>
    have hfar := spaced_head hn (span/w+1) h (fun y hy => (hin y hy).1) (Nat.not_le.mp hlong)
    have hnear := (hin x List.mem_cons_self).2
    have hdiv := Nat.lt_mul_div_succ span hw
    omega

theorem spaced_push {n w t : ℕ} (hn : 0 < n) {xs all : List ℕ} (h : Spaced n w xs)
    (hsub : xs.Sublist all) (hs : all.Pairwise (fun x y => y ≤ x))
    (hfew : all.countP (fun s => t < s+w) < n) : Spaced n w (t::xs) := by
  refine ⟨fun y hy => ?_,h⟩
  by_contra hnear
  have hsorted : (xs.take (n-1)++xs.drop (n-1)).Pairwise (fun x y => y ≤ x) := by
    rw [List.take_append_drop]
    exact hs.sublist hsub
  have hpart : (xs.take (n-1)++[y]).Sublist all := by
    refine List.Sublist.trans ?_ hsub
    have hstep := (List.Sublist.refl (xs.take (n-1))).append (List.singleton_sublist.mpr hy)
    rwa [List.take_append_drop] at hstep
  have hall : ∀ x ∈ xs.take (n-1)++[y], t < x+w := by
    intro x hx
    rcases List.mem_append.mp hx with hx | hx
    · have hyx := (List.pairwise_append.mp hsorted).2.2 x hx y hy
      omega
    · rw [List.mem_singleton.mp hx]
      omega
  have hlen : (xs.take (n-1)++[y]).length = n := by
    have hpos := List.length_pos_of_mem hy
    rw [List.length_drop] at hpos
    rw [List.length_append,List.length_take,List.length_singleton]
    omega
  have hcount : (xs.take (n-1)++[y]).countP (fun s => t < s+w) = n := by
    rw [List.countP_eq_length.mpr (fun x hx => decide_eq_true (hall x hx)),hlen]
  have hle := hpart.countP_le (p := fun s => decide (t < s+w))
  omega

end EosPayg.SlidingWindow
