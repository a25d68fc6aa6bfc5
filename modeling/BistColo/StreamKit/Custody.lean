import Mathlib.Data.List.Basic
import Mathlib.Data.List.Forall2
/-!
# What is taken from a queue

Whatever was put into a queue has been taken out or still waits, each element
once (`Held`). A process that takes from it step by step keeps an account: an
entry for every step, with what the step reported and what it took.
-/

namespace StreamKit

variable {α β γ ε σ : Type*}

/-- What was put in is what was taken out and what waits, in any order. -/
def Held (put taken waiting : List ε) : Prop := (taken ++ waiting).Perm put

namespace Held

variable {put taken waiting : List ε}

theorem all_waiting (waiting : List ε) : Held waiting [] waiting := .refl waiting

theorem push (h : Held put taken waiting) (xs : List ε) : Held (put ++ xs) taken (waiting ++ xs) := by
  rw [Held, ← List.append_assoc]
  exact h.append_right xs

theorem pop {x : ε} (h : Held put taken (x :: waiting)) : Held put (taken ++ [x]) waiting := by
  rwa [Held, List.append_assoc, List.singleton_append]

theorem requeue {x : ε} (h : Held put taken (x :: waiting)) : Held put taken (waiting ++ [x]) :=
  (List.perm_append_singleton x waiting).append_left taken |>.trans h

theorem clear (h : Held put taken waiting) : Held put (taken ++ waiting) [] := by
  rwa [Held, List.append_nil]

end Held

/-! ## Accounts -/

section Steps

variable (step : σ → α → Option (β × σ))

/-- What the steps report, one after the other, if none of them fails to. -/
def reports : List α → σ → Option (List β × σ)
  | [], s => some ([], s)
  | a :: as, s =>
    match step s a with
    | none => none
    | some (b, s) => (reports as s).map fun p => (b :: p.1, p.2)

variable {step}

/-- If every step keeps `I` and has an entry that is good for its input, with
what it adds to the elements taken, then so has a run, entry by entry. -/
theorem reports_account (I : σ → Prop) (total : σ → List ε) (report : γ → β) (takes : γ → List ε) (Good : α → γ → Prop)
    (hstep : ∀ s a b s', I s → step s a = some (b, s') →
      I s' ∧ ∃ e, report e = b ∧ Good a e ∧ total s' = total s ++ takes e)
    {as : List α} {s last : σ} {bs : List β} (h0 : I s) (h : reports step as s = some (bs, last)) :
    I last ∧ ∃ es, es.map report = bs ∧ List.Forall₂ Good as es ∧ total last = total s ++ es.flatMap takes := by
  induction as generalizing s bs with
  | nil =>
    cases h
    exact ⟨h0, [], rfl, .nil, by simp⟩
  | cons a as ih =>
    rw [reports] at h
    split at h
    · cases h
    · rename_i b s' hs
      obtain ⟨p, hp, heq⟩ := Option.map_eq_some_iff.1 h
      cases heq
      -- the entry of this step stands in front of those of the rest
      obtain ⟨hI, e, rfl, hgood, htotal⟩ := hstep s a b s' h0 hs
      obtain ⟨hlast, es, hes, hall, hrest⟩ := ih hI hp
      refine ⟨hlast, e :: es, ?_, .cons hgood hall, ?_⟩
      · rw [List.map_cons, hes]
      · rw [hrest, htotal, List.flatMap_cons, List.append_assoc]

end Steps

end StreamKit
