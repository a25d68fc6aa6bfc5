import BistColo.StreamKit.SlidingWindow
import Mathlib.Data.Finset.Lattice.Fold
import Mathlib.Order.Lattice.Nat
import Mathlib.Data.List.Sort
/-!
# When a sliding window lets a sequence in

Requests that come one after the other, each ready in a window of its own, to a
limiter of `limit` in `span` windows. `served` says in which window each of them
gets through: not before it is ready, not before the one in front of it, and not
before the one `limit` places in front is out of the span. What a limiter let
through so far may be the first of the sequence (`served_past`).
-/

namespace StreamKit

def served (limit span : Nat) (ready : Nat → Nat) (n : Nat) : Nat :=
  (Finset.range (n + 1)).sup fun p => ready p + span * ((n - p) / limit)

section Served

variable {limit span : Nat} {ready : Nat → Nat}

theorem term_le_served {n p : Nat} (hp : p ≤ n) : ready p + span * ((n - p) / limit) ≤ served limit span ready n :=
  Finset.le_sup (f := fun p => ready p + span * ((n - p) / limit)) (Finset.mem_range.2 (Nat.lt_succ_of_le hp))

theorem ready_le_served (n : Nat) : ready n ≤ served limit span ready n :=
  (Nat.le_add_right _ _).trans (term_le_served (Nat.le_refl n))

theorem served_mono {m n : Nat} (h : m ≤ n) : served limit span ready m ≤ served limit span ready n := by
  refine Finset.sup_le fun p hp => ?_
  have hle : p ≤ m := Nat.le_of_lt_succ (Finset.mem_range.1 hp)
  have hdiv : (m - p) / limit ≤ (n - p) / limit := Nat.div_le_div_right (by omega)
  exact (Nat.add_le_add_left (Nat.mul_le_mul_left span hdiv) _).trans (term_le_served (hle.trans h))

/-- `limit` places further on, the span has passed. -/
theorem served_add_limit (hlimit : 0 < limit) (n : Nat) :
    served limit span ready n + span ≤ served limit span ready (n + limit) := by
  obtain ⟨p, hp, heq⟩ := Finset.exists_mem_eq_sup (Finset.range (n + 1)) ⟨0, by simp⟩
    fun p => ready p + span * ((n - p) / limit)
  have hle : p ≤ n := Nat.le_of_lt_succ (Finset.mem_range.1 hp)
  have hdiv : (n + limit - p) / limit = (n - p) / limit + 1 := by
    rw [Nat.sub_add_comm hle, Nat.add_div_right _ hlimit]
  have hterm := @term_le_served limit span ready _ _ (hle.trans (Nat.le_add_right n limit))
  rw [hdiv, Nat.mul_succ] at hterm
  rw [served, heq]
  omega

/-- Nothing else holds a request back. -/
theorem served_le (hlimit : 0 < limit) {n w : Nat} (hready : ready n ≤ w)
    (hfront : ∀ m, n = m + 1 → served limit span ready m ≤ w)
    (hroom : ∀ m, n = m + limit → served limit span ready m + span ≤ w) : served limit span ready n ≤ w := by
  refine Finset.sup_le fun p hp => ?_
  have hle : p ≤ n := Nat.le_of_lt_succ (Finset.mem_range.1 hp)
  rcases Nat.lt_or_ge (n - p) limit with hnear | hfar
  · rw [Nat.div_eq_of_lt hnear, Nat.mul_zero, Nat.add_zero]
    rcases Nat.eq_or_lt_of_le hle with rfl | hlt
    · exact hready
    · exact ((ready_le_served p).trans (served_mono (by omega))).trans (hfront (n - 1) (by omega))
  · -- the one `limit` places in front was held back by the same request
    have hdiv : (n - p) / limit = (n - limit - p) / limit + 1 := by
      have hsub : n - p = n - limit - p + limit := by omega
      rw [hsub, Nat.add_div_right _ hlimit]
    have hterm := @term_le_served limit span ready (n - limit) p (by omega)
    have hlast := hroom (n - limit) (by omega)
    rw [hdiv, Nat.mul_succ]
    omega

/-- In windows that never go backwards there is room for the next request exactly
if the one `limit` places in front is out of the span. -/
theorem within_map_lt_iff {g : Nat → Nat} (hg : ∀ m n, m ≤ n → g m ≤ g n) {n w : Nat} (hpast : ∀ m < n, g m ≤ w) :
    within span w ((List.range n).map g) < limit ↔ 0 < limit ∧ ∀ m, n = m + limit → g m + span ≤ w := by
  unfold within
  rw [List.countP_map]
  constructor
  · intro hlt
    refine ⟨Nat.zero_lt_of_lt hlt, ?_⟩
    rintro m rfl
    by_contra hin
    -- the last `limit` of them are all in the span
    have hlast : ((List.range limit).map (m + ·)).countP
        ((fun v => decide (v ≤ w ∧ w < v + span)) ∘ g) = ((List.range limit).map (m + ·)).length := by
      rw [List.countP_eq_length]
      intro j hj
      obtain ⟨k, hk, rfl⟩ := List.mem_map.1 hj
      have hle := hg m (m + k) (Nat.le_add_right m k)
      have hpast' := hpast (m + k) (Nat.add_lt_add_left (List.mem_range.1 hk) m)
      simp only [Function.comp_apply, decide_eq_true_eq]
      omega
    rw [List.range_add, List.countP_append, hlast, List.length_map, List.length_range] at hlt
    omega
  · rintro ⟨hlimit, hroom⟩
    rcases Nat.lt_or_ge n limit with hfew | hmany
    · have hle := List.countP_le_length (p := (fun v => decide (v ≤ w ∧ w < v + span)) ∘ g) (l := List.range n)
      rw [List.length_range] at hle
      exact hle.trans_lt hfew
    · obtain ⟨m, rfl⟩ : ∃ m, n = m + limit := ⟨n - limit, (Nat.sub_add_cancel hmany).symm⟩
      have hout := hroom m rfl
      have hfirst : (List.range (m + 1)).countP ((fun v => decide (v ≤ w ∧ w < v + span)) ∘ g) = 0 := by
        rw [List.countP_eq_zero]
        intro j hj
        have hle := hg j m (Nat.le_of_lt_succ (List.mem_range.1 hj))
        simp only [Function.comp_apply, decide_eq_true_eq]
        omega
      have hsplit : m + limit = m + 1 + (limit - 1) := by omega
      have hle := List.countP_le_length (p := (fun v => decide (v ≤ w ∧ w < v + span)) ∘ g)
        (l := (List.range (limit - 1)).map (m + 1 + ·))
      rw [List.length_map, List.length_range] at hle
      rw [hsplit, List.range_add, List.countP_append, hfirst]
      omega

/-! ## What was let through before -/

/-- The requests of a history, and then the others. -/
def following (vs : List Nat) (ready : Nat → Nat) (n : Nat) : Nat := if h : n < vs.length then vs[n] else ready (n - vs.length)

theorem following_past {vs : List Nat} {n : Nat} (hn : n < vs.length) : following vs ready n = vs[n] := dif_pos hn

theorem following_later (vs : List Nat) (ready : Nat → Nat) (n : Nat) : following vs ready (vs.length + n) = ready n := by
  rw [following, dif_neg (by omega), Nat.add_sub_cancel_left]

theorem sorted_getElem {vs : List Nat} (hsorted : vs.Pairwise (· ≤ ·)) {m n : Nat} (hmn : m ≤ n) (hn : n < vs.length) :
    vs[m] ≤ vs[n] := by
  rcases Nat.eq_or_lt_of_le hmn with rfl | hlt
  · exact Nat.le_refl _
  · exact List.pairwise_iff_getElem.1 hsorted m n (by omega) hn hlt

/-- Of requests that were let through, the one `limit` places on is a span later. -/
theorem span_of_within {vs : List Nat} (hsorted : vs.Pairwise (· ≤ ·)) (hle : ∀ w, within span w vs ≤ limit) {m : Nat}
    (hm : m + limit < vs.length) : vs[m] + span ≤ vs[m + limit] := by
  by_contra hin
  -- all from the one to the other would lie in one span
  have hall : ((vs.drop m).take (limit + 1)).countP (fun v => v ≤ vs[m + limit] ∧ vs[m + limit] < v + span) =
      ((vs.drop m).take (limit + 1)).length := by
    rw [List.countP_eq_length]
    intro v hv
    obtain ⟨k, hk, rfl⟩ := List.mem_iff_getElem.1 hv
    rw [List.length_take, List.length_drop] at hk
    rw [List.getElem_take, List.getElem_drop]
    have hfirst := sorted_getElem hsorted (Nat.le_add_right m k) (by omega)
    have hlast := sorted_getElem hsorted (by omega : m + k ≤ m + limit) hm
    simp only [decide_eq_true_eq]
    omega
  have hsub : ((vs.drop m).take (limit + 1)).Sublist vs := (List.take_sublist _ _).trans (List.drop_sublist _ _)
  have hcount : limit + 1 ≤ within span vs[m + limit] vs := by
    have hle' : ((vs.drop m).take (limit + 1)).length ≤ within span vs[m + limit] vs := hall ▸ hsub.countP_le
    rw [List.length_take, List.length_drop] at hle'
    omega
  exact absurd (hle vs[m + limit]) (Nat.not_le.2 hcount)

/-- A limiter let each request of its history through in its own window. -/
theorem served_past (hlimit : 0 < limit) {vs : List Nat} (hsorted : vs.Pairwise (· ≤ ·))
    (hle : ∀ w, within span w vs ≤ limit) {n : Nat} (hn : n < vs.length) :
    served limit span (following vs ready) n = vs[n] := by
  induction n using Nat.strong_induction_on with
  | _ n ih =>
    apply Nat.le_antisymm
    · refine served_le hlimit (Nat.le_of_eq (following_past hn)) ?_ ?_
      · rintro m rfl
        rw [ih m (Nat.lt_succ_self m) (by omega)]
        exact sorted_getElem hsorted (Nat.le_succ m) hn
      · rintro m rfl
        rw [ih m (by omega) (by omega)]
        exact span_of_within hsorted hle hn
    · rw [← @following_past ready vs n hn]
      exact ready_le_served n

theorem served_history (hlimit : 0 < limit) {vs : List Nat} (hsorted : vs.Pairwise (· ≤ ·))
    (hle : ∀ w, within span w vs ≤ limit) :
    (List.range vs.length).map (served limit span (following vs ready)) = vs := by
  refine List.ext_getElem (by simp) fun n hn hn' => ?_
  rw [List.getElem_map, List.getElem_range, served_past hlimit hsorted hle hn']

end Served

end StreamKit
