import Mathlib.Tactic

/-!
# A list of records, one of which changes

Counts, sums and tests over a list when one entry is replaced by another, and
what becomes of its head and its tail.
-/

set_option autoImplicit false

namespace EosPayg.RecordList

variable {α : Type*} (l : List α) (i : ℕ) (a b : α)

theorem set_split (hi : l[i]? = some a) :
    ∃ before after, l = before++a::after ∧ ∀ b, l.set i b = before++b::after := by
  obtain ⟨h,rfl⟩ := List.getElem?_eq_some_iff.mp hi
  refine ⟨l.take i,l.drop (i+1),?_,fun b => ?_⟩
  · rw [List.getElem_cons_drop h,List.take_append_drop]
  · rw [List.set_eq_take_append_cons_drop,if_pos h]

theorem countP_exchange (p : α → Bool) (hi : l[i]? = some a) :
    (l.set i b).countP p+(if p a then 1 else 0) = l.countP p+(if p b then 1 else 0) := by
  obtain ⟨before,after,hl,hset⟩ := set_split l i a hi
  rw [hset b,hl]
  simp only [List.countP_append,List.countP_cons]
  omega

theorem countP_kept (p : α → Bool) (hi : l[i]? = some a) (h : p b = p a) :
    (l.set i b).countP p = l.countP p := by
  have := countP_exchange l i a b p hi
  rw [h] at this
  omega

theorem sum_exchange (w : α → ℕ) (hi : l[i]? = some a) :
    ((l.set i b).map w).sum+w a = (l.map w).sum+w b := by
  obtain ⟨before,after,hl,hset⟩ := set_split l i a hi
  rw [hset b,hl]
  simp only [List.map_append,List.map_cons,List.sum_append,List.sum_cons]
  omega

theorem map_kept {β : Type*} (f : α → β) (hi : l[i]? = some a) (h : f b = f a) :
    (l.set i b).map f = l.map f := by
  obtain ⟨before,after,hl,hset⟩ := set_split l i a hi
  rw [hset b,hl]
  simp only [List.map_append,List.map_cons,h]

theorem exists_exchange (p : α → Prop) (hi : l[i]? = some a) :
    (∃ x ∈ l.set i b, p x) ∨ p a ↔ (∃ x ∈ l, p x) ∨ p b := by
  obtain ⟨before,after,hl,hset⟩ := set_split l i a hi
  rw [hset b,hl]
  simp only [List.mem_append,List.mem_cons,or_and_right,exists_or,exists_eq_left]
  simp only [or_left_comm,or_comm]

/-- What some entry has is kept, when its replacement has it too. -/
theorem exists_set {p : α → Prop} (hi : l[i]? = some a) (h : ∃ x ∈ l, p x) (hb : p a → p b) :
    ∃ x ∈ l.set i b, p x := by
  rcases (exists_exchange l i a b p hi).mpr (Or.inl h) with hx | ha
  · exact hx
  · exact ⟨b,List.mem_set (List.getElem?_eq_some_iff.mp hi).1 b,hb ha⟩

theorem any_kept (p : α → Bool) (hi : l[i]? = some a) (h : p b = p a) :
    (l.set i b).any p = l.any p := by
  rw [Bool.eq_iff_iff,List.any_eq_true,List.any_eq_true,← List.countP_pos_iff,
    ← List.countP_pos_iff,countP_kept l i a b p hi h]

theorem forall_set {p : α → Prop} (h : ∀ x ∈ l, p x) (hb : p b) : ∀ x ∈ l.set i b, p x := by
  intro x hx
  rcases List.mem_or_eq_of_mem_set hx with hm | rfl
  · exact h x hm
  · exact hb

theorem head_set (hi : l[i]? = some a) :
    (l.set i b).head? = if i = 0 then some b else l.head? := by
  cases l with
  | nil => simp at hi
  | cons x xs => cases i <;> simp

theorem mem_tail_set (h : a ∈ (l.set i b).tail) : a ∈ l.tail ∨ (i ≠ 0 ∧ a = b) := by
  cases l with
  | nil => simp at h
  | cons x xs =>
    cases i with
    | zero => exact Or.inl h
    | succ i =>
      rcases List.mem_or_eq_of_mem_set h with hh | hh
      · exact Or.inl hh
      · exact Or.inr ⟨by omega,hh⟩

theorem mem_tail_of_getElem (hi : l[i]? = some a) (h : i ≠ 0) : a ∈ l.tail := by
  cases l with
  | nil => simp at hi
  | cons x xs =>
    cases i with
    | zero => exact absurd rfl h
    | succ i => exact List.mem_of_getElem? hi

theorem head_of_getElem (hi : l[0]? = some a) : l.head? = some a := by
  cases l with
  | nil => simp at hi
  | cons x xs => simpa using hi

theorem forall_head_set {p : α → Prop} (hi : l[i]? = some a) (h : ∀ x ∈ l.head?, p x)
    (hb : i = 0 → l.head? = some a → p b) : ∀ x ∈ (l.set i b).head?, p x := by
  intro x hx
  rw [head_set l i a b hi] at hx
  split_ifs at hx with h0
  · cases hx
    subst h0
    exact hb rfl (head_of_getElem l a hi)
  · exact h x hx

theorem exists_head_set {p : α → Prop} (hi : l[i]? = some a)
    (h : ∃ x, l.head? = some x ∧ p x) (hb : p a → p b) :
    ∃ x, (l.set i b).head? = some x ∧ p x := by
  obtain ⟨x,hx,hp⟩ := h
  rw [head_set l i a b hi]
  split_ifs with h0
  · subst h0
    rw [head_of_getElem l a hi] at hx
    cases hx
    exact ⟨b,rfl,hb hp⟩
  · exact ⟨x,hx,hp⟩

theorem forall_tail_set {p : α → Prop} (hi : l[i]? = some a) (h : ∀ x ∈ l.tail, p x)
    (hb : p a → p b) : ∀ x ∈ (l.set i b).tail, p x := by
  intro x hx
  rcases mem_tail_set l i x b hx with hm | ⟨h0,rfl⟩
  · exact h x hm
  · exact hb (h a (mem_tail_of_getElem l i a hi h0))

theorem mem_take_set (k : ℕ) (c : α) (hi : l[i]? = some a) (h : c ∈ (l.set i b).take k) :
    c ∈ l.take k ∨ (a ∈ l.take k ∧ c = b) := by
  rw [List.take_set] at h
  by_cases hk : i < k
  · rcases List.mem_or_eq_of_mem_set h with hh | hh
    · exact Or.inl hh
    · exact Or.inr ⟨List.mem_of_getElem? ((List.getElem?_take_of_lt hk).trans hi),hh⟩
  · rw [List.set_eq_of_length_le ((List.length_take_le k l).trans (Nat.not_lt.mp hk))] at h
    exact Or.inl h

theorem reverse_get (hi : i < l.length) : l.reverse[l.length-1-i]? = l[i]? := by
  rw [List.getElem?_reverse (by omega)]
  congr 1
  omega

theorem reverse_set (hi : i < l.length) : (l.set i b).reverse = l.reverse.set (l.length-1-i) b := by
  refine List.ext_getElem (by simp) fun j hj hj' => ?_
  simp only [List.length_reverse,List.length_set] at hj
  simp only [List.getElem_reverse,List.getElem_set,List.length_set]
  split_ifs <;> first | rfl | omega

end EosPayg.RecordList
