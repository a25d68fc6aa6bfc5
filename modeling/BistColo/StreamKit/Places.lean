import Mathlib.Data.List.Basic
/-!
# Places of a list

A list that is walked by an index while it is edited, and two lists that stand
side by side. The first `i + 1` places are passed and the others are ahead; a
place taken away from the passed ones moves the next one ahead to them.
-/

namespace StreamKit

/-! ## Side by side -/

theorem eraseIdx_zipWith {α β γ : Type*} (f : α → β → γ) (l : List α) (m : List β) (k : Nat) :
    (List.zipWith f l m).eraseIdx k = List.zipWith f (l.eraseIdx k) (m.eraseIdx k) := by
  induction l generalizing m k with
  | nil => rfl
  | cons a l ih =>
    cases m with
    | nil => cases k <;> rw [List.zipWith_nil_right, List.eraseIdx_nil, List.eraseIdx_nil, List.zipWith_nil_right]
    | cons b m =>
      cases k with
      | zero => rfl
      | succ k => exact congrArg (f a b :: ·) (ih m k)

theorem zipWith_modify {α β γ : Type*} {f : α → β → γ} {g : α → α} {h : γ → γ}
    (hg : ∀ a b, f (g a) b = h (f a b)) (l : List α) (m : List β) (k : Nat) :
    List.zipWith f (l.modify k g) m = (List.zipWith f l m).modify k h := by
  induction l generalizing m k with
  | nil => rw [List.modify_nil, List.zipWith_nil_left, List.modify_nil]
  | cons a l ih =>
    cases m with
    | nil => rw [List.zipWith_nil_right, List.zipWith_nil_right, List.modify_nil]
    | cons b m =>
      cases k with
      | zero => exact congrArg (· :: List.zipWith f l m) (hg a b)
      | succ k => exact congrArg (f a b :: ·) (ih m k)

/-- What has a key of its own is all that a filter on the key takes away. -/
theorem filter_eq_eraseIdx {α κ : Type*} [DecidableEq κ] {key : α → κ} {l : List α} {a : κ} {k : Nat}
    (hnodup : (l.map key).Nodup) (h : l.findIdx? (fun x => key x = a) = some k) :
    l.filter (fun x => key x ≠ a) = l.eraseIdx k := by
  induction l generalizing k with
  | nil => cases h
  | cons x l ih =>
    rw [List.map_cons, List.nodup_cons] at hnodup
    rw [List.findIdx?_cons] at h
    by_cases hx : key x = a
    · simp only [hx, decide_true, if_true, Option.some.injEq] at h
      subst h
      rw [List.filter_cons_of_neg (by simp [hx]), List.eraseIdx_zero, List.tail_cons, List.filter_eq_self]
      intro y hy
      apply decide_eq_true
      rintro rfl
      exact hnodup.1 (hx ▸ List.mem_map_of_mem hy)
    · simp only [hx, decide_false, Bool.false_eq_true, if_false, Option.map_eq_some_iff] at h
      obtain ⟨j, hj, rfl⟩ := h
      rw [List.filter_cons_of_pos (by simp [hx]), ih hnodup.2 hj]
      rfl

/-! ## Passed and ahead -/

section Walk

variable {α : Type*}

theorem getElem?_of_mem_take {l : List α} {n : Nat} {x : α} (h : x ∈ l.take n) : ∃ j < n, l[j]? = some x := by
  obtain ⟨j, hj⟩ := List.mem_iff_getElem?.1 h
  rw [List.getElem?_take, Option.ite_none_right_eq_some] at hj
  exact ⟨j, hj⟩

theorem getElem?_of_mem_drop {l : List α} {n : Nat} {x : α} (h : x ∈ l.drop n) :
    ∃ j, n ≤ j ∧ l[j]? = some x := by
  obtain ⟨j, hj⟩ := List.mem_iff_getElem?.1 h
  rw [List.getElem?_drop] at hj
  exact ⟨n + j, Nat.le_add_right n j, hj⟩

theorem mem_drop_of_getElem? {l : List α} {n j : Nat} {x : α} (hj : n ≤ j) (h : l[j]? = some x) :
    x ∈ l.drop n := by
  apply List.mem_iff_getElem?.2
  exact ⟨j - n, by rw [List.getElem?_drop, Nat.add_sub_cancel' hj, h]⟩

theorem mem_take_of_getElem? {l : List α} {n j : Nat} {x : α} (hj : j < n) (h : l[j]? = some x) :
    x ∈ l.take n := by
  apply List.mem_iff_getElem?.2
  exact ⟨j, by rw [List.getElem?_take, if_pos hj, h]⟩

/-- A place taken away moves the one behind the index to it, if it is passed. -/
theorem mem_take_eraseIdx {l : List α} {i k : Nat} {x : α} (h : x ∈ (l.eraseIdx k).take (i + 1)) :
    x ∈ l.take (i + 1) ∨ k ≤ i ∧ l[i + 1]? = some x := by
  obtain ⟨j, hj⟩ := List.mem_iff_getElem?.1 h
  rw [List.getElem?_take, Option.ite_none_right_eq_some, List.getElem?_eraseIdx] at hj
  obtain ⟨hji, hj⟩ := hj
  split at hj
  · exact .inl (List.mem_iff_getElem?.2 ⟨j, by rw [List.getElem?_take, if_pos hji]; exact hj⟩)
  · rcases Nat.lt_or_ge j i with hlt | hge
    · exact .inl (List.mem_iff_getElem?.2 ⟨j + 1, by rw [List.getElem?_take, if_pos (by omega)]; exact hj⟩)
    · obtain rfl : j = i := by omega
      exact .inr ⟨by omega, hj⟩

/-- What is still ahead was ahead, and did not stand right behind the index. -/
theorem mem_drop_eraseIdx {l : List α} {i k : Nat} {x : α} (h : x ∈ (l.eraseIdx k).drop (i + 1)) :
    ∃ j, i + 1 ≤ j ∧ l[j]? = some x ∧ (k ≤ i → j ≠ i + 1) := by
  obtain ⟨j, hj⟩ := List.mem_iff_getElem?.1 h
  rw [List.getElem?_drop, List.getElem?_eraseIdx] at hj
  split at hj
  · exact ⟨_, Nat.le_add_right _ _, hj, by omega⟩
  · exact ⟨_, by omega, hj, by omega⟩

end Walk

end StreamKit
