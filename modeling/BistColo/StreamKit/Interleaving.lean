import Mathlib.Logic.Function.Basic
import Mathlib.Data.List.Basic
/-!
# Interleavings

`Interleaves lists s` says that `s` is made of the lists by taking the head of
any of them, over and over, until all are empty; every element carries the name
of its list. `Interleaves.block` looks at the front of an interleaving whose
lists are made of blocks.
-/

namespace StreamKit

variable {τ α β : Type*} [DecidableEq τ]

inductive Interleaves : (τ → List α) → List (τ × α) → Prop
  | nil {lists : τ → List α} (h : ∀ t, lists t = []) : Interleaves lists []
  | cons {lists : τ → List α} {s : List (τ × α)} {t : τ} {a : α} {more : List α} (h : lists t = a :: more)
      (hrest : Interleaves (Function.update lists t more) s) : Interleaves lists ((t, a) :: s)

namespace Interleaves

theorem cons_iff {lists : τ → List α} {s : List (τ × α)} {t : τ} {a : α} :
    Interleaves lists ((t, a) :: s) ↔ ∃ more, lists t = a :: more ∧ Interleaves (Function.update lists t more) s := by
  constructor
  · rintro ⟨⟩
    rename_i more h hrest
    exact ⟨more, h, hrest⟩
  · rintro ⟨more, h, hrest⟩
    exact cons h hrest

/-- What an interleaving holds comes from its lists. -/
theorem mem {lists : τ → List α} {s : List (τ × α)} (h : Interleaves lists s) : ∀ p ∈ s, p.2 ∈ lists p.1 := by
  induction h with
  | nil h => nofun
  | @cons lists s t a more h hrest ih =>
    intro p hp
    rcases List.mem_cons.1 hp with rfl | hp
    · rw [h]
      exact List.mem_cons_self
    · have hmem := ih p hp
      by_cases ht : p.1 = t
      · rw [ht, Function.update_self] at hmem
        rw [ht, h]
        exact List.mem_cons_of_mem a hmem
      · rwa [Function.update_of_ne ht] at hmem

/-- The first element is the first of a block. -/
theorem block {blocks : τ → List β} {f : β → List α} (hf : ∀ b, f b ≠ []) {s : List (τ × α)} {t : τ} {a : α}
    (h : Interleaves (fun t => (blocks t).flatMap f) ((t, a) :: s)) :
    ∃ b more rest, blocks t = b :: more ∧ f b = a :: rest ∧
      Interleaves (Function.update (fun t => (blocks t).flatMap f) t (rest ++ more.flatMap f)) s := by
  obtain ⟨tail, hlist, hrest⟩ := cons_iff.1 h
  cases hb : blocks t with
  | nil => simp [hb] at hlist
  | cons b more =>
    cases hw : f b with
    | nil => exact absurd hw (hf b)
    | cons a' rest =>
      rw [hb, List.flatMap_cons, hw, List.cons_append, List.cons.injEq] at hlist
      obtain ⟨rfl, rfl⟩ := hlist
      exact ⟨b, more, rest, rfl, hw, hrest⟩

/-- The blocks that are left when the first of `t` is done. -/
theorem update_blocks (blocks : τ → List β) (f : β → List α) (t : τ) (more : List β) :
    Function.update (fun t => (blocks t).flatMap f) t (more.flatMap f) =
      fun t' => (Function.update blocks t more t').flatMap f :=
  (Function.comp_update (List.flatMap f) blocks t more).symm

end Interleaves

end StreamKit
