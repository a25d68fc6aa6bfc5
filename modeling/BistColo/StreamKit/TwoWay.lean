import Mathlib.Logic.Function.Basic
/-!
# Two maps over the same records

Records with two keys, kept in a map by each: `m` by the left key and `n` by
the right one. They are `TwoWay` when a record is found under both its keys or
under neither. A put writes a record to both maps and removes nothing, so it
keeps them two-way exactly if no other record holds one of its keys without
the other (`TwoWay.put_iff`).
-/

namespace StreamKit

variable {α κ ι : Type*} {left : α → κ} {right : α → ι} {m : κ → Option α} {n : ι → Option α}

/-- What one map finds, with the other key right, the other map finds too. -/
def TwoWay (left : α → κ) (right : α → ι) (m : κ → Option α) (n : ι → Option α) : Prop :=
  ∀ k l a, (n l = some a ∧ left a = k) ↔ (m k = some a ∧ right a = l)

theorem TwoWay.symm (h : TwoWay left right m n) : TwoWay right left n m := fun k l a => (h l k a).symm

theorem TwoWay.empty (left : α → κ) (right : α → ι) : TwoWay left right (fun _ => none) (fun _ => none) := by
  intro k l a
  simp

/-- A record lies under its own key, and under its other key in the other map. -/
theorem TwoWay.found (h : TwoWay left right m n) {k : κ} {a : α} (hk : m k = some a) :
    left a = k ∧ n (right a) = some a := by
  have hn := (h k (right a) a).2 ⟨hk, rfl⟩
  exact ⟨hn.2, hn.1⟩

variable [DecidableEq κ] [DecidableEq ι]

/-- A put that takes over a key by itself leaves the other map with the old record. -/
theorem TwoWay.same_of_put (h : TwoWay left right m n) {a : α}
    (h' : TwoWay left right (Function.update m (left a) (some a)) (Function.update n (right a) (some a))) {b : α}
    (hb : m (left a) = some b) : right b = right a := by
  by_contra hne
  obtain ⟨hleft, hn⟩ := h.found hb
  have hstale : Function.update n (right a) (some a) (right b) = some b := by
    rw [Function.update_of_ne hne]
    exact hn
  have hnow := ((h' (left a) (right b) b).1 ⟨hstale, hleft⟩).1
  rw [Function.update_self, Option.some.injEq] at hnow
  exact hne (by rw [hnow])

/-- One direction of what a put keeps. -/
theorem TwoWay.put_left (h : TwoWay left right m n) {a : α} (hleft : ∀ b, m (left a) = some b → right b = right a)
    {k : κ} {l : ι} {b : α} (hl : Function.update n (right a) (some a) l = some b) (hb : left b = k) :
    Function.update m (left a) (some a) k = some b ∧ right b = l := by
  by_cases hla : l = right a
  · subst hla
    rw [Function.update_self, Option.some.injEq] at hl
    subst hl
    subst hb
    exact ⟨Function.update_self _ _ _, rfl⟩
  · rw [Function.update_of_ne hla] at hl
    obtain ⟨hm, hr⟩ := (h k l b).1 ⟨hl, hb⟩
    have hk : k ≠ left a := by
      rintro rfl
      exact hla (hr.symm.trans (hleft b hm))
    rw [Function.update_of_ne hk]
    exact ⟨hm, hr⟩

/-- Exactly when a put keeps the maps two-way. -/
theorem TwoWay.put_iff (h : TwoWay left right m n) (a : α) :
    TwoWay left right (Function.update m (left a) (some a)) (Function.update n (right a) (some a)) ↔
      (∀ b, m (left a) = some b → right b = right a) ∧ ∀ b, n (right a) = some b → left b = left a := by
  constructor
  · intro h'
    exact ⟨fun b hb => h.same_of_put h' hb, fun b hb => h.symm.same_of_put h'.symm hb⟩
  · rintro ⟨hleft, hright⟩
    intro k l b
    constructor
    · rintro ⟨hl, hb⟩
      exact h.put_left hleft hl hb
    · rintro ⟨hk, hb⟩
      exact h.symm.put_left hright hk hb

end StreamKit
