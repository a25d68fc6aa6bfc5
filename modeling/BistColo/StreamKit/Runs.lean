import Mathlib.Data.List.Basic
/-!
# Runs of a deterministic machine

A machine is a `step` from a state and an input to the next state; the inputs
carry everything the surroundings decide. `run` folds it over a list of
inputs, and `AllAlong` says that a condition on a state and the input it meets
holds at every step. `run_inv` is the induction every run theorem uses: an
invariant kept by each step that meets the condition holds wherever a run
whose steps all meet it ends, so in every state it passes through.
-/

namespace StreamKit

variable {σ α : Type*} (step : σ → α → σ)

/-- The state after the inputs `as`. -/
def run (s : σ) (as : List α) : σ := as.foldl step s

@[simp] theorem run_nil (s : σ) : run step s [] = s := rfl

@[simp] theorem run_cons (s : σ) (a : α) (as : List α) :
    run step s (a :: as) = run step (step s a) as := rfl

@[simp] theorem run_append (s : σ) (as bs : List α) :
    run step s (as ++ bs) = run step (run step s as) bs := by
  simp [run]

variable (C : σ → α → Prop)

/-- `C` holds at every step: of each input and the state that meets it. -/
def AllAlong : σ → List α → Prop
  | _, [] => True
  | s, a :: as => C s a ∧ AllAlong (step s a) as

instance AllAlong.decidable [∀ s a, Decidable (C s a)] : ∀ s as, Decidable (AllAlong step C s as)
  | _, [] => .isTrue trivial
  | s, a :: as => @instDecidableAnd _ _ _ (AllAlong.decidable (step s a) as)

@[simp] theorem allAlong_nil (s : σ) : AllAlong step C s [] := trivial

@[simp] theorem allAlong_cons (s : σ) (a : α) (as : List α) :
    AllAlong step C s (a :: as) ↔ C s a ∧ AllAlong step C (step s a) as := Iff.rfl

@[simp] theorem allAlong_append (s : σ) (as bs : List α) :
    AllAlong step C s (as ++ bs) ↔ AllAlong step C s as ∧ AllAlong step C (run step s as) bs := by
  induction as generalizing s with
  | nil => simp
  | cons a as ih => simp [ih, and_assoc]

variable {step C}

theorem allAlong_and {D : σ → α → Prop} {s : σ} {as : List α} :
    AllAlong step (fun s a => C s a ∧ D s a) s as ↔ AllAlong step C s as ∧ AllAlong step D s as := by
  induction as generalizing s with
  | nil => exact (and_self_iff).symm
  | cons a as ih => rw [allAlong_cons, allAlong_cons, allAlong_cons, ih, and_and_and_comm]

/-- Inputs that each leave the state alone leave it alone together. -/
theorem run_same {s : σ} {as : List α} (h : ∀ a ∈ as, step s a = s) : run step s as = s := by
  induction as with
  | nil => rfl
  | cons a as ih =>
    rw [run_cons, h a List.mem_cons_self]
    exact ih fun b hb => h b (List.mem_cons_of_mem a hb)

theorem allAlong_same {s : σ} {as : List α} (h : ∀ a ∈ as, step s a = s) (hC : ∀ a ∈ as, C s a) :
    AllAlong step C s as := by
  induction as with
  | nil => trivial
  | cons a as ih =>
    refine ⟨hC a List.mem_cons_self, ?_⟩
    rw [h a List.mem_cons_self]
    exact ih (fun b hb => h b (List.mem_cons_of_mem a hb)) (fun b hb => hC b (List.mem_cons_of_mem a hb))

/-- The condition at one step of the run. -/
theorem AllAlong.at {s : σ} {pre post : List α} {a : α} (h : AllAlong step C s (pre ++ a :: post)) :
    C (run step s pre) a := by
  rw [allAlong_append] at h
  exact h.2.1

/-- The condition holds all along a run when it holds at every step of it. -/
theorem allAlong_of_at {s : σ} {as : List α} (h : ∀ pre a post, as = pre ++ a :: post → C (run step s pre) a) :
    AllAlong step C s as := by
  induction as generalizing s with
  | nil => trivial
  | cons a as ih =>
    refine ⟨h [] a as rfl, ih ?_⟩
    intro pre b post has
    exact h (a :: pre) b post (by rw [has]; rfl)

/-- An invariant that every step meeting `C` keeps holds after a run whose
steps all meet `C`. -/
theorem run_inv (I : σ → Prop) (hstep : ∀ s a, I s → C s a → I (step s a)) {s : σ} {as : List α}
    (h0 : I s) (h : AllAlong step C s as) : I (run step s as) := by
  induction as generalizing s with
  | nil => exact h0
  | cons a as ih => exact ih (hstep s a h0 h.1) h.2

/-- An invariant that every step keeps holds after every run. -/
theorem run_inv_all (I : σ → Prop) (hstep : ∀ s a, I s → I (step s a)) {s : σ} {as : List α}
    (h0 : I s) : I (run step s as) := by
  induction as generalizing s with
  | nil => exact h0
  | cons a as ih => exact ih (hstep s a h0)

/-- A step that does not meet `C` breaks the invariant, and what is broken stays so. -/
theorem run_breaks (I B : σ → Prop) (hstep : ∀ s a, I s → C s a → I (step s a))
    (hbreak : ∀ s a, I s → ¬ C s a → B (step s a)) (hstay : ∀ s a, B s → B (step s a)) {s : σ} {as : List α}
    (h0 : I s) (h : ¬ AllAlong step C s as) : B (run step s as) := by
  induction as generalizing s with
  | nil => exact absurd trivial h
  | cons a as ih =>
    by_cases hC : C s a
    · exact ih (hstep s a h0 hC) fun hrest => h ⟨hC, hrest⟩
    · exact @run_inv_all _ _ step B hstay _ as (hbreak s a h0 hC)

/-- Two conditions that agree, in runs that keep to `H`, wherever an invariant
holds that the second keeps. -/
theorem allAlong_congr_of_keeps {D H : σ → α → Prop} (I : σ → Prop)
    (hkeep : ∀ s a, I s → H s a → D s a → I (step s a)) (hiff : ∀ s a, I s → H s a → (C s a ↔ D s a)) {s : σ}
    {as : List α} (h0 : I s) (hH : AllAlong step H s as) : AllAlong step C s as ↔ AllAlong step D s as := by
  induction as generalizing s with
  | nil => exact Iff.rfl
  | cons a as ih =>
    rw [allAlong_cons, allAlong_cons, hiff s a h0 hH.1]
    exact and_congr_right fun hD => ih (hkeep s a h0 hH.1 hD) hH.2

/-- Two conditions that agree at every state a run can reach hold along the same runs. -/
theorem allAlong_congr {D H : σ → α → Prop} (I : σ → Prop) (hkeep : ∀ s a, I s → H s a → I (step s a))
    (hiff : ∀ s a, I s → H s a → (C s a ↔ D s a)) {s : σ} {as : List α} (h0 : I s) (hH : AllAlong step H s as) :
    AllAlong step C s as ↔ AllAlong step D s as :=
  allAlong_congr_of_keeps I (fun s a hI hH _ => hkeep s a hI hH) hiff h0 hH

/-- The condition holds all along a run if and only if it holds at every step of it. -/
theorem allAlong_iff_at {s : σ} {as : List α} :
    AllAlong step C s as ↔ ∀ pre a post, as = pre ++ a :: post → C (run step s pre) a := by
  constructor
  · rintro h pre a post rfl
    exact h.at
  · exact allAlong_of_at

/-- Exactly when a run keeps `Q`: if steps that meet `C` keep the invariant
and a step that does not breaks `Q` for good, then `Q` at the end says that
`C` held all along. -/
theorem run_iff_allAlong (I Q : σ → Prop) (hkeep : ∀ s a, I s → C s a → I (step s a))
    (hbreak : ∀ s a, I s → ¬ C s a → ¬ Q (step s a)) (hback : ∀ s a, Q (step s a) → Q s) (hQ : ∀ s, I s → Q s)
    {s : σ} {as : List α} (h0 : I s) : Q (run step s as) ↔ AllAlong step C s as := by
  have hback_run : ∀ (as : List α) (s : σ), Q (run step s as) → Q s := by
    intro as
    induction as with
    | nil => exact fun s h => h
    | cons a as ih => exact fun s h => hback s a (ih (step s a) h)
  -- a step that breaks `Q` decides, and before the first of them the invariant holds
  induction as generalizing s with
  | nil => exact ⟨fun _ => trivial, fun _ => hQ s h0⟩
  | cons a as ih =>
    by_cases hC : C s a
    · have hrest := ih (hkeep s a h0 hC)
      exact ⟨fun h => ⟨hC, hrest.1 h⟩, fun h => hrest.2 h.2⟩
    · constructor
      · intro h
        exact absurd (hback_run as _ h) (hbreak s a h0 hC)
      · intro h
        exact absurd h.1 hC

/-- A machine that does what another does wherever an invariant and a condition hold. -/
theorem run_map_eq {β : Type*} {step' : σ → β → σ} {f : β → α} (I : σ → Prop)
    (hkeep : ∀ s a, I s → C s a → I (step s a)) (hstep : ∀ s b, I s → C s (f b) → step' s b = step s (f b)) {s : σ}
    {bs : List β} (h0 : I s) (h : AllAlong step C s (bs.map f)) : run step' s bs = run step s (bs.map f) := by
  induction bs generalizing s with
  | nil => rfl
  | cons b bs ih =>
    rw [List.map_cons, run_cons, run_cons, hstep s b h0 h.1]
    exact ih (hkeep s (f b) h0 h.1) h.2

end StreamKit
