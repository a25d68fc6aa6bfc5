import Mathlib.Algebra.BigOperators.Group.Finset.Basic
import Mathlib.Algebra.Order.BigOperators.Group.Finset
import BistColo.App.Attempts
/-!
# The backoff of a reconnect

The pauses that `reconnect_with_deadline` asks for between its attempts. The
backoff is doubled in 32 bits before the cap is applied, so once it has come
to 2^31 ms the next one wraps around below the cap. `backoff_doubles_iff` says
which policies end before that pause would be over.
-/

namespace BistColo.App

/-- A pause that the loop asks for, and the time then left to the deadline. -/
structure Pause where
  asked : Nat
  left : Nat
  deriving DecidableEq

namespace ReconnectPolicy

/-- The pauses that `retry` asks for. -/
def pauses (p : ReconnectPolicy) (deadline : Nat) : List Attempt → UInt32 → Nat → List Pause
  | [], _, _ => []
  | a :: as, backoff, due =>
    let now := due + a.span
    match a.socket with
    | .ok _ => []
    | .error _ =>
      if deadline ≤ now then []
      else
        let sleep := min (backoff.toNat * 1000000) (deadline - now)
        ⟨sleep, deadline - now⟩ :: pauses p deadline as (p.nextBackoff backoff) (now + sleep)

/-- The pauses of a dial from the time `start` on. -/
def paused (p : ReconnectPolicy) (start : Nat) (as : List Attempt) : List Pause :=
  p.pauses (start + p.deadlineNs) as p.initialBackoffMs start

/-- The backoff behind `k + 1` failed attempts, without wrap-around. -/
def doubled (p : ReconnectPolicy) (k : Nat) : Nat := min (p.initialBackoffMs.toNat * 2 ^ k) p.maxBackoffMs.toNat

/-- The pauses double up to the cap, and only the deadline cuts them. -/
structure Doubles (p : ReconnectPolicy) (qs : List Pause) : Prop where
  asked : ∀ (k : Nat) (q : Pause), qs[k]? = some q → q.asked = min (p.doubled k * 1000000) q.left
  grow : ∀ (j k : Nat) (q r : Pause), j ≤ k → qs[j]? = some q → qs[k]? = some r → r.asked < r.left → q.asked ≤ r.asked

/-- Behind a backoff of 2^31 ms the deadline is over before the wrapped one. -/
def Unwrapped (p : ReconnectPolicy) : Prop :=
  ∀ n, 2 ^ 31 ≤ p.doubled n →
    p.deadlineMs.toNat ≤ ∑ j ∈ Finset.range (n + 1), p.doubled j + (2 * p.doubled n - 2 ^ 32)

section Pauses

variable {p : ReconnectPolicy} {deadline : Nat} {a : Attempt} {as : List Attempt} {backoff : UInt32} {due k : Nat}

/-! ## The loop -/

theorem pauses_cons (p : ReconnectPolicy) (deadline : Nat) (a : Attempt) (as : List Attempt) (backoff : UInt32) (due : Nat) :
    p.pauses deadline (a :: as) backoff due =
      if a.socket.isOk = false ∧ due + a.span < deadline then
        ⟨min (backoff.toNat * 1000000) (deadline - (due + a.span)), deadline - (due + a.span)⟩ ::
          p.pauses deadline as (p.nextBackoff backoff) (nextDue deadline backoff (due + a.span))
      else [] := by
  rw [pauses]
  cases a.socket with
  | ok k => rfl
  | error e =>
    dsimp only
    split
    · rename_i hlate
      rw [if_neg fun h => Nat.not_lt.2 hlate h.2]
    · rename_i hearly
      rw [if_pos ⟨rfl, Nat.not_le.1 hearly⟩, nextDue]

/-- The backoff behind `k` others. -/
def backoffAt (p : ReconnectPolicy) (backoff : UInt32) (k : Nat) : Nat := (p.nextBackoff^[k] backoff).toNat

theorem sum_backoffAt (p : ReconnectPolicy) (backoff : UInt32) (k : Nat) :
    ∑ j ∈ Finset.range (k + 1), p.backoffAt backoff j =
      ∑ j ∈ Finset.range k, p.backoffAt (p.nextBackoff backoff) j + backoff.toNat :=
  Finset.sum_range_succ' _ _

/-- A pause comes after all the others in full. -/
theorem pauses_spec {q : Pause} (h : (p.pauses deadline as backoff due)[k]? = some q) :
    0 < q.left ∧ q.asked = min (p.backoffAt backoff k * 1000000) q.left ∧
      due + (∑ j ∈ Finset.range k, p.backoffAt backoff j) * 1000000 + q.left ≤ deadline := by
  induction as generalizing backoff due k with
  | nil => cases h
  | cons a as ih =>
    rw [pauses_cons] at h
    split at h
    · rename_i hnext
      cases k with
      | zero =>
        cases h
        simp only [Finset.range_zero, Finset.sum_empty]
        refine ⟨?_, rfl, ?_⟩
        all_goals omega
      | succ k =>
        rw [List.getElem?_cons_succ] at h
        obtain ⟨hleft, hasked, htime⟩ := ih h
        have hfull : nextDue deadline backoff (due + a.span) = due + a.span + backoff.toNat * 1000000 :=
          nextDue_eq (by omega)
        refine ⟨hleft, hasked, ?_⟩
        rw [sum_backoffAt, Nat.add_mul]
        omega
    · cases h

/-- An attempt that is refused at once. -/
def refusedAtOnce : Attempt := { Outage.refusal with took := 0 }

theorem refusedAtOnce_span : refusedAtOnce.span = 0 := rfl

/-- Where every attempt is refused at once, the pauses are all that takes time. -/
theorem pauses_refusedAtOnce (h : due + (∑ j ∈ Finset.range k, p.backoffAt backoff j) * 1000000 < deadline) :
    ∃ q, (p.pauses deadline (List.replicate (k + 1) refusedAtOnce) backoff due)[k]? = some q ∧
      due + (∑ j ∈ Finset.range k, p.backoffAt backoff j) * 1000000 + q.left = deadline := by
  induction k generalizing backoff due with
  | zero =>
    have hdue : due < deadline := by simpa using h
    rw [List.replicate_succ, pauses_cons, refusedAtOnce_span, if_pos ⟨rfl, hdue⟩]
    refine ⟨_, rfl, ?_⟩
    simp only [Finset.range_zero, Finset.sum_empty]
    omega
  | succ k ih =>
    rw [sum_backoffAt, Nat.add_mul] at h ⊢
    have hfull : nextDue deadline backoff due = due + backoff.toNat * 1000000 := by
      apply nextDue_eq
      unfold nextDue
      omega
    rw [List.replicate_succ, pauses_cons, refusedAtOnce_span, if_pos ⟨rfl, (by omega : due + 0 < deadline)⟩,
      Nat.add_zero, hfull, List.getElem?_cons_succ]
    obtain ⟨q, hq, htime⟩ := @ih (p.nextBackoff backoff) (due + backoff.toNat * 1000000) (by omega)
    exact ⟨q, hq, by omega⟩

end Pauses

/-! ## The doubling -/

theorem doubled_succ (p : ReconnectPolicy) (k : Nat) :
    p.doubled (k + 1) = min (2 * p.doubled k) p.maxBackoffMs.toNat := by
  unfold doubled
  rw [Nat.pow_succ, ← Nat.mul_assoc]
  omega

theorem doubled_le_succ (p : ReconnectPolicy) (k : Nat) : p.doubled k ≤ p.doubled (k + 1) := by
  have hcap : p.doubled k ≤ p.maxBackoffMs.toNat := Nat.min_le_right _ _
  rw [doubled_succ]
  omega

theorem doubled_mono (p : ReconnectPolicy) : Monotone p.doubled := monotone_nat_of_le_succ p.doubled_le_succ

theorem toNat_nextBackoff (p : ReconnectPolicy) (backoff : UInt32) :
    (p.nextBackoff backoff).toNat = min (2 * backoff.toNat % 2 ^ 32) p.maxBackoffMs.toNat := by
  have hdouble : (backoff * 2).toNat = 2 * backoff.toNat % 2 ^ 32 := by
    rw [UInt32.toNat_mul, Nat.mul_comm]
    rfl
  unfold nextBackoff
  split
  · rename_i habove
    rw [gt_iff_lt, UInt32.lt_iff_toNat_lt, hdouble] at habove
    omega
  · rename_i hbelow
    rw [gt_iff_lt, UInt32.lt_iff_toNat_lt, hdouble] at hbelow
    omega

theorem backoffAt_succ (p : ReconnectPolicy) (backoff : UInt32) (k : Nat) :
    p.backoffAt backoff (k + 1) = min (2 * p.backoffAt backoff k % 2 ^ 32) p.maxBackoffMs.toNat := by
  rw [backoffAt, Function.iterate_succ_apply', toNat_nextBackoff]
  rfl

section Doubling

variable {p : ReconnectPolicy} (hcap : p.initialBackoffMs ≤ p.maxBackoffMs) {k n : Nat}
include hcap

/-- Up to the first backoff of 2^31 ms nothing wraps around. -/
theorem backoffAt_eq (h : ∀ j < k, p.doubled j < 2 ^ 31) : p.backoffAt p.initialBackoffMs k = p.doubled k := by
  induction k with
  | zero =>
    rw [UInt32.le_iff_toNat_le] at hcap
    change p.initialBackoffMs.toNat = min (p.initialBackoffMs.toNat * 2 ^ 0) _
    omega
  | succ k ih =>
    have hlow := h k (Nat.lt_succ_self k)
    rw [backoffAt_succ, doubled_succ, ih fun j hj => h j (Nat.lt_succ_of_lt hj), Nat.mod_eq_of_lt (by omega)]

/-- The first backoff that wraps around. -/
theorem backoffAt_wrapped (hhigh : 2 ^ 31 ≤ p.doubled n) (hfirst : ∀ j < n, p.doubled j < 2 ^ 31) :
    p.backoffAt p.initialBackoffMs (n + 1) = 2 * p.doubled n - 2 ^ 32 ∧ 2 * p.doubled n - 2 ^ 32 < p.doubled (n + 1) := by
  have hle : p.doubled n ≤ p.maxBackoffMs.toNat := Nat.min_le_right _ _
  have hmax := p.maxBackoffMs.toNat_lt
  rw [backoffAt_succ, backoffAt_eq hcap hfirst, doubled_succ]
  omega

theorem sum_doubled (hfirst : ∀ j < n, p.doubled j < 2 ^ 31) :
    ∑ j ∈ Finset.range (n + 1), p.backoffAt p.initialBackoffMs j = ∑ j ∈ Finset.range (n + 1), p.doubled j := by
  apply Finset.sum_congr rfl
  intro j hj
  have hjn := Finset.mem_range.1 hj
  exact backoffAt_eq hcap fun i hi => hfirst i (by omega)

end Doubling

/-- The first backoff of 2^31 ms or more. -/
theorem exists_first {p : ReconnectPolicy} {n : Nat} (h : 2 ^ 31 ≤ p.doubled n) :
    ∃ m ≤ n, 2 ^ 31 ≤ p.doubled m ∧ ∀ j < m, p.doubled j < 2 ^ 31 := by
  have hex : ∃ n, 2 ^ 31 ≤ p.doubled n := ⟨n, h⟩
  refine ⟨Nat.find hex, Nat.find_min' hex h, Nat.find_spec hex, ?_⟩
  intro j hj
  exact Nat.not_le.1 (Nat.find_min hex hj)

/-! ## The pauses of every dial -/

theorem Doubles.of_asked {p : ReconnectPolicy} {qs : List Pause}
    (h : ∀ (k : Nat) (q : Pause), qs[k]? = some q → q.asked = min (p.doubled k * 1000000) q.left) : p.Doubles qs := by
  refine ⟨h, ?_⟩
  intro j k q r hjk hq hr hcut
  have hmono := p.doubled_mono hjk
  rw [h k r hr] at hcut ⊢
  rw [h j q hq]
  omega

theorem Unwrapped.doubles {p : ReconnectPolicy} (hcap : p.initialBackoffMs ≤ p.maxBackoffMs) (h : p.Unwrapped)
    (start : Nat) (as : List Attempt) : p.Doubles (p.paused start as) := by
  apply Doubles.of_asked
  intro k q hq
  obtain ⟨hleft, hasked, htime⟩ := pauses_spec hq
  rw [hasked]
  by_cases hlow : ∀ j < k, p.doubled j < 2 ^ 31
  · rw [backoffAt_eq hcap hlow]
  · obtain ⟨n, hnk, hhigh, hfirst⟩ : ∃ n < k, 2 ^ 31 ≤ p.doubled n ∧ ∀ j < n, p.doubled j < 2 ^ 31 := by
      push Not at hlow
      obtain ⟨j, hjk, hj⟩ := hlow
      obtain ⟨n, hnj, hn⟩ := exists_first hj
      exact ⟨n, Nat.lt_of_le_of_lt hnj hjk, hn⟩
    have hdeadline := h n hhigh
    have hsum := sum_doubled hcap hfirst
    obtain ⟨hwrapped, hless⟩ := backoffAt_wrapped hcap hhigh hfirst
    have hns : p.deadlineNs = p.deadlineMs.toNat * 1000000 := rfl
    have hmono := p.doubled_mono (Nat.succ_le_of_lt hnk)
    rcases Nat.lt_or_ge (n + 1) k with hafter | hat
    · -- the wrapped backoff is already over
      have hle := Finset.sum_le_sum_of_subset (f := p.backoffAt p.initialBackoffMs) (Finset.range_mono hafter)
      rw [Finset.sum_range_succ, hsum, hwrapped] at hle
      omega
    · obtain rfl : k = n + 1 := Nat.le_antisymm hat hnk
      rw [hsum] at htime
      rw [hwrapped, Nat.min_eq_right (a := (2 * p.doubled n - 2 ^ 32) * 1000000) (by omega), Nat.min_eq_right (by omega)]

theorem Doubles.unwrapped {p : ReconnectPolicy} (hcap : p.initialBackoffMs ≤ p.maxBackoffMs)
    (h : ∀ as, p.Doubles (p.paused 0 as)) : p.Unwrapped := by
  intro n hn
  obtain ⟨m, hmn, hhigh, hfirst⟩ := exists_first hn
  obtain ⟨hwrapped, hless⟩ := backoffAt_wrapped hcap hhigh hfirst
  have hsum := sum_doubled hcap hfirst
  have hns : p.deadlineNs = p.deadlineMs.toNat * 1000000 := rfl
  have hmono := p.doubled_mono hmn
  have hle := Finset.sum_le_sum_of_subset (f := p.doubled) (Finset.range_mono (Nat.add_le_add_right hmn 1))
  by_contra hlate
  have hdue : 0 + (∑ j ∈ Finset.range (m + 1), p.backoffAt p.initialBackoffMs j) * 1000000 < 0 + p.deadlineNs := by
    rw [hsum]
    omega
  obtain ⟨q, hq, htime⟩ := pauses_refusedAtOnce hdue
  obtain ⟨-, hasked, -⟩ := pauses_spec hq
  rw [hsum] at htime
  -- the wrapped pause is neither the doubled one nor cut
  have hshort : (2 * p.doubled m - 2 ^ 32) * 1000000 < min (p.doubled (m + 1) * 1000000) q.left := by
    apply lt_min
    all_goals omega
  have hdoubled : q.asked = min (p.doubled (m + 1) * 1000000) q.left := (h _).asked _ q hq
  rw [hdoubled, hwrapped] at hasked
  have hle := hasked.trans_le (Nat.min_le_left _ _)
  exact Nat.not_le.2 hshort hle

/-- For every policy, the pauses of every dial double up to the cap exactly if
the deadline is over before a wrapped backoff. -/
theorem backoff_doubles_iff (p : ReconnectPolicy) (hcap : p.initialBackoffMs ≤ p.maxBackoffMs) :
    (∀ start as, p.Doubles (p.paused start as)) ↔ p.Unwrapped :=
  ⟨fun h => Doubles.unwrapped hcap (h 0), Unwrapped.doubles hcap⟩

/-- A cap below 2^31 ms is never wrapped around. -/
theorem Unwrapped.of_cap {p : ReconnectPolicy} (h : p.maxBackoffMs < 0x80000000) : p.Unwrapped := by
  intro n hn
  have hle : p.doubled n ≤ p.maxBackoffMs.toNat := Nat.min_le_right _ _
  have hlt : p.maxBackoffMs.toNat < 2 ^ 31 := h
  omega

theorem backoff_doubles_default : ({} : ReconnectPolicy).Doubles (paused {} 0 [Outage.refusal, Outage.refusal]) :=
  (backoff_doubles_iff {} (by decide)).2 (.of_cap (by decide)) 0 _

/-- A backoff of 2^31 ms is followed by none at all. -/
def slowPolicy : ReconnectPolicy := ⟨0xffffffff, 0x80000000, 0x80000000⟩

/-- The second pause between refused attempts of 10 ms is not 2^31 ms long. -/
theorem backoff_wraps : ¬ ∀ p : ReconnectPolicy, p.initialBackoffMs ≤ p.maxBackoffMs →
    ∀ start as, p.Doubles (p.paused start as) := by
  intro hall
  have hdoubles := hall slowPolicy (by decide) 0 [Outage.refusal, Outage.refusal]
  have hasked := hdoubles.asked 1 ⟨0, 2147483627000000⟩ (by decide +kernel)
  revert hasked
  decide +kernel

end ReconnectPolicy

end BistColo.App
