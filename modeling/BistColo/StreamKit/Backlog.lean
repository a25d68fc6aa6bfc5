import BistColo.StreamKit.Splitter
/-!
# Items under way

A writer encodes items one behind the other, and a reader takes them off the
stream again. `Backlog` says how far the reader is: it has taken the first `n`
items, and `left` is what it has not taken, in whichever buffers on the way that
lies. Writing adds to the items and to what is left; a reader that finds an item
in front of what has come through finds the next one (`Backlog.next`).
-/

namespace StreamKit

variable {α β γ : Type*}

/-- The first `n` of the items are taken, and `left` are the encodings of the others. -/
structure Backlog (enc : γ → List α) (items : List γ) (n : Nat) (left : List α) : Prop where
  le : n ≤ items.length
  eq : left = (items.drop n).flatMap enc

namespace Backlog

variable {enc : γ → List α} {items : List γ} {n : Nat} {left : List α}

theorem nil (enc : γ → List α) : Backlog enc [] 0 [] := ⟨Nat.le_refl 0, rfl⟩

theorem write (h : Backlog enc items n left) (more : List γ) :
    Backlog enc (items ++ more) n (left ++ more.flatMap enc) := by
  refine ⟨?_, ?_⟩
  · rw [List.length_append]
    exact Nat.le_add_right_of_le h.le
  · rw [List.drop_append_of_le_length h.le, List.flatMap_append, h.eq]

/-- The reader has taken `k` items behind the first `n`, or all there are. -/
theorem taken (k : Nat) (hleft : left = ((items.drop n).drop k).flatMap enc) :
    Backlog enc items (min (n + k) items.length) left := by
  refine ⟨Nat.min_le_right _ _, ?_⟩
  rw [hleft, List.drop_drop]
  by_cases hk : n + k ≤ items.length
  · rw [Nat.min_eq_left hk]
  · rw [Nat.min_eq_right (Nat.le_of_not_le hk), List.drop_eq_nil_of_le (Nat.le_of_not_le hk), List.drop_length]

variable (P : Splitter α β) {dec : γ → β} (hdec : ∀ c ys, P.next (enc c ++ ys) = some (dec c, ys))
include hdec

/-- What is found in front of `xs`, when `ys` is still behind it, is the next item. -/
theorem next {xs ys r : List α} {b : β} (h : Backlog enc items n (xs ++ ys)) (hn : P.next xs = some (b, r)) :
    ∃ c, items[n]? = some c ∧ b = dec c ∧ Backlog enc items (n + 1) (r ++ ys) := by
  have hstable := P.stable ys hn
  rw [h.eq] at hstable
  cases hdrop : items.drop n with
  | nil =>
    rw [hdrop, List.flatMap_nil, P.next_nil] at hstable
    nomatch hstable
  | cons c rest =>
    rw [hdrop, List.flatMap_cons, hdec, Option.some.injEq, Prod.mk.injEq] at hstable
    have hget : items[n]? = some c := by
      rw [← List.head?_drop, hdrop]
      rfl
    have hlt : n < items.length := (List.getElem?_eq_some_iff.1 hget).1
    refine ⟨c, hget, hstable.1.symm, hlt, ?_⟩
    rw [← hstable.2, ← List.drop_drop, hdrop]
    rfl

/-- Where nothing is found in front of what is left, everything is taken. -/
theorem done (h : Backlog enc items n left) (hn : P.next left = none) : n = items.length := by
  rw [h.eq] at hn
  cases hdrop : items.drop n with
  | nil => exact Nat.le_antisymm h.le (List.drop_eq_nil_iff.1 hdrop)
  | cons c rest =>
    rw [hdrop, List.flatMap_cons, hdec] at hn
    nomatch hn

end Backlog

end StreamKit
