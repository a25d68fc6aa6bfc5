import BistColo.StreamKit.Runs
import Mathlib.Data.List.Count
import Mathlib.Data.List.Pairwise
import Mathlib.Order.Basic
/-!
# A sliding window over a history

Requests arrive in numbered windows that never go backwards. `within k w` counts
the ones of a history that lie in the `k` windows ending with `w`, and `letIn`
lets a request through while they are fewer than the limit. `within_run_letIn`
is what such a limiter is for: no `k` consecutive windows ever hold more than
the limit, wherever they start.
-/

namespace StreamKit

/-- How many of `vs` lie in the `k` windows that end with `w`. -/
def within (k w : Nat) (vs : List Nat) : Nat := vs.countP fun v => v ≤ w ∧ w < v + k

@[simp] theorem within_append (k w : Nat) (vs us : List Nat) : within k w (vs ++ us) = within k w vs + within k w us :=
  List.countP_append ..

theorem within_singleton (k w v : Nat) : within k w [v] = if v ≤ w ∧ w < v + k then 1 else 0 := by
  simp [within, List.countP_singleton]

/-- Once every request lies in the past, time only takes requests out of the span. -/
theorem within_later {k w w' : Nat} {vs : List Nat} (hpast : ∀ v ∈ vs, v ≤ w) (hw : w ≤ w') :
    within k w' vs ≤ within k w vs := by
  refine List.countP_mono_left ?_
  intro v hv hin
  have hle := hpast v hv
  simp only [decide_eq_true_eq] at hin ⊢
  omega

/-- Two spans that meet cover what the two spans together cover. -/
theorem within_add (j k w : Nat) (vs : List Nat) : within (j + k) (w + k) vs ≤ within j w vs + within k (w + k) vs := by
  induction vs with
  | nil => exact Nat.zero_le _
  | cons v vs ih =>
    have hv : within (j + k) (w + k) [v] ≤ within j w [v] + within k (w + k) [v] := by
      simp only [within_singleton]
      split_ifs <;> omega
    have hsplit : ∀ k w, within k w (v :: vs) = within k w [v] + within k w vs := fun k w => within_append k w [v] vs
    simp only [hsplit]
    omega

/-- One request: let through while the `k` windows up to its own hold fewer than the limit. -/
def letIn (limit k : Nat) (vs : List Nat) (w : Nat) : List Nat := if within k w vs < limit then vs ++ [w] else vs

theorem mem_letIn {limit k w v : Nat} {vs : List Nat} (h : v ∈ letIn limit k vs w) : v ∈ vs ∨ v = w := by
  unfold letIn at h
  split at h
  · simpa using h
  · exact .inl h

/-- A request let through is below the limit in its own span, so in every span that holds it. -/
theorem within_letIn {limit k w : Nat} {vs : List Nat} (hpast : ∀ v ∈ vs, v ≤ w) (hle : ∀ w', within k w' vs ≤ limit) (w' : Nat) :
    within k w' (letIn limit k vs w) ≤ limit := by
  unfold letIn
  split
  · rename_i hbelow
    rw [within_append, within_singleton]
    split
    · rename_i hin
      have := within_later (k := k) hpast hin.1
      omega
    · exact hle w'
  · exact hle w'

/-- A history and what is still to come: nothing that comes lies before what is past. -/
theorem past_letIn {limit k w : Nat} {vs ws : List Nat} (hpast : ∀ v ∈ vs, ∀ w' ∈ w :: ws, v ≤ w')
    (hws : (w :: ws).Pairwise (· ≤ ·)) : ∀ v ∈ letIn limit k vs w, ∀ w' ∈ ws, v ≤ w' := by
  intro v hv w' hw'
  rcases mem_letIn hv with hv | rfl
  · exact hpast v hv w' (List.mem_cons_of_mem w hw')
  · exact List.rel_of_pairwise_cons hws hw'

/-- No `k` windows in a row ever hold more than the limit. -/
theorem within_run_letIn {limit k : Nat} {vs ws : List Nat} (hle : ∀ w, within k w vs ≤ limit)
    (hpast : ∀ v ∈ vs, ∀ w ∈ ws, v ≤ w) (hws : ws.Pairwise (· ≤ ·)) (w : Nat) :
    within k w (run (letIn limit k) vs ws) ≤ limit := by
  induction ws generalizing vs with
  | nil => exact hle w
  | cons w₀ ws ih =>
    have hw₀ : ∀ v ∈ vs, v ≤ w₀ := fun v hv => hpast v hv w₀ List.mem_cons_self
    exact ih (within_letIn hw₀ hle) (past_letIn hpast hws) hws.of_cons

end StreamKit
