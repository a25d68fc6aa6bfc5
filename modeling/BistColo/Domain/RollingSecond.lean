import BistColo.Domain.Throttler
import BistColo.StreamKit.SlidingWindow
/-!
# What the throttler lets through

The ten slots stand for the whole history: a throttler that was asked at times
that never go backwards decides as a sliding window of ten over the windows of
all requests it let through (`decides_as_sliding_window`). Measured in real
time, a second that starts with one of its windows holds at most the limit,
and any other second at most twice as much (`real_time_budget`).
-/

open StreamKit

namespace BistColo.Domain.Throttler

/-! ## Histories -/

/-- The throttler after requests at `times`. -/
def asked (t : Throttler) (times : List UInt64) : Throttler := run (fun t now => (t.tryAcquire now).2) t times

/-- What each request is told. -/
def outcomes : Throttler → List UInt64 → List Bool
  | _, [] => []
  | t, now :: times => (t.tryAcquire now).1 :: outcomes (t.tryAcquire now).2 times

/-- The times of the requests let through. -/
def granted : Throttler → List UInt64 → List UInt64
  | _, [] => []
  | t, now :: times =>
    if (t.tryAcquire now).1 then now :: granted (t.tryAcquire now).2 times else granted (t.tryAcquire now).2 times

theorem granted_sublist (t : Throttler) (times : List UInt64) : (t.granted times).Sublist times := by
  induction times generalizing t with
  | nil => exact List.Sublist.slnil
  | cons now times ih =>
    rw [granted]
    split
    · exact (ih _).cons_cons now
    · exact (ih _).cons now

def windows (times : List UInt64) : List Nat := times.map fun now => (windowId now).toNat

theorem windowId_toNat (now : UInt64) : (windowId now).toNat = now.toNat / 100000000 := by
  rw [windowId, UInt64.toNat_div]
  rfl

theorem windowId_mono {now now' : UInt64} (h : now ≤ now') : windowId now ≤ windowId now' := by
  rw [UInt64.le_iff_toNat_le, windowId_toNat, windowId_toNat]
  exact Nat.div_le_div_right (UInt64.le_iff_toNat_le.1 h)

theorem windows_sorted {times : List UInt64} (h : times.Pairwise (· ≤ ·)) : (windows times).Pairwise (· ≤ ·) := by
  unfold windows
  rw [List.pairwise_map]
  exact h.imp fun hle => UInt64.le_iff_toNat_le.1 (windowId_mono hle)

/-! ## The slots stand for the history -/

/-- The slots of `t` stand for requests let through in the windows `vs`, none after `w`. -/
structure StandsFor (t : Throttler) (vs : List Nat) (w : UInt64) : Prop where
  upTo : t.UpTo w
  past : ∀ v ∈ vs, v ≤ w.toNat
  used : ∀ w', w ≤ w' → (t.usedInRollingSecond w').toNat = within 10 w'.toNat vs

theorem StandsFor.mono {t : Throttler} {vs : List Nat} {w w' : UInt64} (h : t.StandsFor vs w) (hw : w ≤ w') :
    t.StandsFor vs w' where
  upTo := h.upTo.mono hw
  past v hv := (h.past v hv).trans (UInt64.le_iff_toNat_le.1 hw)
  used w'' hw' := h.used w'' (UInt64.le_trans hw hw')

theorem standsFor_create (capacity tokensPerSec w : UInt64) : (create capacity tokensPerSec).StandsFor [] w where
  upTo := upTo_create capacity tokensPerSec w
  past v hv := absurd hv List.not_mem_nil
  used w' _ := by
    have hnone : (create capacity tokensPerSec).usedInRollingSecond w' = 0 := Finset.sum_eq_zero fun _ _ => if_pos rfl
    rw [hnone]
    rfl

theorem counted_one {v w : UInt64} (hv : v ≠ noWindow) (hw : v ≤ w) :
    (counted ⟨v, 1⟩ w).toNat = within 10 w.toNat [v.toNat] := by
  have hle := UInt64.le_iff_toNat_le.1 hw
  have hspan : windowCount ≤ w - v ↔ v.toNat + 10 ≤ w.toNat := by
    rw [UInt64.le_iff_toNat_le, UInt64.toNat_sub_of_le _ _ hw]
    simp only [windowCount, UInt64.reduceToNat]
    omega
  unfold counted
  rw [if_neg hv, if_neg (UInt64.not_lt.2 hw), within_singleton]
  simp only [hspan]
  split_ifs <;> first | rfl | omega

/-- A request is let through exactly when the sliding window admits it. -/
theorem StandsFor.tryAcquire_iff {t : Throttler} {vs : List Nat} {now : UInt64} (h : t.StandsFor vs (windowId now)) :
    (t.tryAcquire now).1 = true ↔ within 10 (windowId now).toNat vs < t.limit.toNat := by
  rw [Throttler.tryAcquire_iff h.upTo, UInt64.lt_iff_toNat_lt, h.used _ (UInt64.le_refl _)]

/-- One request keeps the slots standing for the history, now with the request in it or not. -/
theorem StandsFor.tryAcquire {t : Throttler} {vs : List Nat} {now : UInt64} (h : t.StandsFor vs (windowId now)) :
    (t.tryAcquire now).2.StandsFor (letIn t.limit.toNat 10 vs (windowId now).toNat) (windowId now) := by
  have hroom := h.tryAcquire_iff
  refine ⟨upTo_tryAcquire h.upTo, ?_, ?_⟩
  · intro v hv
    rcases mem_letIn hv with hv | rfl
    · exact h.past v hv
    · exact Nat.le_refl _
  · intro w hw
    unfold letIn
    split
    · rename_i hbelow
      have hnow := UInt64.le_iff_toNat_le.1 hw
      have hcount := within_later (k := 10) h.past hnow
      have hone : within 10 w.toNat [(windowId now).toNat] ≤ 1 := List.countP_le_length
      have hlimit := t.limit.toNat_lt
      -- the sum stays below the limit, so it does not wrap
      rw [used_acquired_later h.upTo hw (hroom.2 hbelow), UInt64.toNat_add, h.used w hw,
        counted_one (windowId_ne_noWindow now) hw, within_append]
      exact Nat.mod_eq_of_lt (by omega)
    · rename_i hfull
      have hno : (t.tryAcquire now).1 = false := by
        rw [Bool.eq_false_iff]
        exact fun hyes => hfull (hroom.1 hyes)
      rw [used_refused h.upTo hw hno]
      exact h.used w hw

/-- The requests let through are the ones the sliding window admits. -/
theorem StandsFor.granted {t : Throttler} {vs : List Nat} {w : UInt64} {times : List UInt64} (h : t.StandsFor vs w)
    (hw : ∀ now ∈ times, w ≤ windowId now) (hclock : times.Pairwise (· ≤ ·)) :
    run (letIn t.limit.toNat 10) vs (windows times) = vs ++ windows (t.granted times) := by
  induction times generalizing t vs w with
  | nil => simp [windows, Throttler.granted]
  | cons now times ih =>
    have hnow := h.mono (hw now List.mem_cons_self)
    have hlater : ∀ now' ∈ times, windowId now ≤ windowId now' :=
      fun now' hmem => windowId_mono (List.rel_of_pairwise_cons hclock hmem)
    have hrest := ih hnow.tryAcquire hlater hclock.of_cons
    rw [limit_tryAcquire] at hrest
    show run _ (letIn _ 10 vs (windowId now).toNat) (windows times) = _
    rw [hrest, Throttler.granted]
    by_cases hyes : (t.tryAcquire now).1 = true
    · rw [if_pos hyes, letIn, if_pos (hnow.tryAcquire_iff.1 hyes)]
      simp [windows]
    · rw [if_neg hyes, letIn, if_neg (fun hroom => hyes (hnow.tryAcquire_iff.2 hroom))]

theorem limit_asked (t : Throttler) (times : List UInt64) : (t.asked times).limit = t.limit :=
  run_inv_all (fun t' => t'.limit = t.limit) (fun t' now h => (limit_tryAcquire t' now).trans h) rfl

/-- Where a run of requests ends, the slots stand for what was let through on the way. -/
theorem StandsFor.asked {t : Throttler} {vs : List Nat} {w w' : UInt64} {times : List UInt64} (h : t.StandsFor vs w)
    (hw : ∀ now ∈ times, w ≤ windowId now) (hclock : times.Pairwise (· ≤ ·)) (hle : w ≤ w')
    (hlast : ∀ now ∈ times, windowId now ≤ w') : (t.asked times).StandsFor (vs ++ windows (t.granted times)) w' := by
  rw [← h.granted hw hclock]
  induction times generalizing t vs w with
  | nil => exact h.mono hle
  | cons now times ih =>
    have hlater : ∀ now' ∈ times, windowId now ≤ windowId now' :=
      fun now' hmem => windowId_mono (List.rel_of_pairwise_cons hclock hmem)
    have hrest := ih (h.mono (hw now List.mem_cons_self)).tryAcquire hlater hclock.of_cons
      (hlast now List.mem_cons_self) (fun now' hmem => hlast now' (List.mem_cons_of_mem now hmem))
    rw [limit_tryAcquire] at hrest
    exact hrest

/-! ## What is still available -/

theorem StandsFor.available {t : Throttler} {vs : List Nat} {now : UInt64} (h : t.StandsFor vs (windowId now)) :
    (t.available now).toNat = t.limit.toNat - within 10 (windowId now).toNat vs := by
  have hused := h.used _ (UInt64.le_refl _)
  unfold Throttler.available
  split
  · rename_i h0
    simp [h0]
  · split
    · rename_i hfull
      rw [UInt64.le_iff_toNat_le, hused] at hfull
      rw [Nat.sub_eq_zero_of_le hfull]
      rfl
    · rename_i hroom
      rw [UInt64.toNat_sub_of_le _ _ (UInt64.le_of_lt (UInt64.not_le.1 hroom)), hused]

/-- Requests at one time are let through until what was available is used up. -/
theorem StandsFor.outcomes_replicate {t : Throttler} {vs : List Nat} {now : UInt64} (h : t.StandsFor vs (windowId now))
    (n : Nat) :
    t.outcomes (List.replicate n now) = List.replicate (min n (t.available now).toNat) true ++
      List.replicate (n - (t.available now).toNat) false := by
  induction n generalizing t vs with
  | zero => simp [outcomes]
  | succ n ih =>
    have hnext := h.tryAcquire.available
    rw [List.replicate_succ, outcomes, ih h.tryAcquire, hnext, h.available, limit_tryAcquire]
    unfold letIn
    split
    · rename_i hroom
      have hself : within 10 (windowId now).toNat [(windowId now).toNat] = 1 := by simp [within_singleton]
      have hmin : min (n + 1) (t.limit.toNat - within 10 (windowId now).toNat vs) =
          min n (t.limit.toNat - (within 10 (windowId now).toNat vs + 1)) + 1 := by omega
      have hsub : n + 1 - (t.limit.toNat - within 10 (windowId now).toNat vs) =
          n - (t.limit.toNat - (within 10 (windowId now).toNat vs + 1)) := by omega
      rw [h.tryAcquire_iff.2 hroom, within_append, hself, hmin, hsub, List.replicate_succ, List.cons_append]
    · rename_i hfull
      have hzero : t.limit.toNat - within 10 (windowId now).toNat vs = 0 := by omega
      have hno : (t.tryAcquire now).1 = false := by
        rw [Bool.eq_false_iff]
        exact fun hyes => hfull (h.tryAcquire_iff.1 hyes)
      rw [hno, hzero]
      simp [List.replicate_succ]

/-! ## The specification -/

theorem limit_create (capacity tokensPerSec : UInt64) :
    (create capacity tokensPerSec).limit.toNat = min capacity.toNat tokensPerSec.toNat := by
  unfold create
  dsimp only
  split
  · rename_i h0
    simp [h0]
  · split
    · rename_i hlt
      rw [UInt64.lt_iff_toNat_lt] at hlt
      omega
    · rename_i hle
      rw [UInt64.lt_iff_toNat_lt] at hle
      omega

theorem within_granted (capacity tokensPerSec : UInt64) {times : List UInt64} (hclock : times.Pairwise (· ≤ ·)) (w : Nat) :
    within 10 w (windows ((create capacity tokensPerSec).granted times)) ≤ min capacity.toNat tokensPerSec.toNat := by
  have hzero : ∀ now ∈ times, 0 ≤ windowId now := fun _ _ => UInt64.le_iff_toNat_le.2 (Nat.zero_le _)
  have h := (standsFor_create capacity tokensPerSec 0).granted hzero hclock
  rw [List.nil_append, limit_create] at h
  rw [← h]
  exact within_run_letIn (fun w' => Nat.zero_le _) (fun v hv => absurd hv List.not_mem_nil) (windows_sorted hclock) w

/-- After any requests at times in their order, the next one is let through
exactly when the ten windows up to its own hold fewer than the limit; no ten
windows in a row ever hold more; and what is available at `now` is how many
requests at `now` are let through, all before the first refusal. -/
theorem decides_as_sliding_window (capacity tokensPerSec : UInt64) (times : List UInt64) (now : UInt64)
    (hclock : (times ++ [now]).Pairwise (· ≤ ·)) :
    ((((create capacity tokensPerSec).asked times).tryAcquire now).1 = true ↔
      within 10 (windowId now).toNat (windows ((create capacity tokensPerSec).granted times)) <
        min capacity.toNat tokensPerSec.toNat) ∧
    (∀ w, within 10 w (windows ((create capacity tokensPerSec).granted times)) ≤ min capacity.toNat tokensPerSec.toNat) ∧
    ∀ n, ((create capacity tokensPerSec).asked times).outcomes (List.replicate n now) =
      List.replicate (min n (((create capacity tokensPerSec).asked times).available now).toNat) true ++
        List.replicate (n - (((create capacity tokensPerSec).asked times).available now).toNat) false := by
  rw [List.pairwise_append] at hclock
  obtain ⟨htimes, -, hlast⟩ := hclock
  have hzero : ∀ now' ∈ times, 0 ≤ windowId now' := fun _ _ => UInt64.le_iff_toNat_le.2 (Nat.zero_le _)
  have hpast : ∀ now' ∈ times, windowId now' ≤ windowId now :=
    fun now' hmem => windowId_mono (hlast now' hmem now List.mem_cons_self)
  have hnow := (standsFor_create capacity tokensPerSec 0).asked hzero htimes (UInt64.le_iff_toNat_le.2 (Nat.zero_le _)) hpast
  rw [List.nil_append] at hnow
  refine ⟨?_, within_granted capacity tokensPerSec htimes, hnow.outcomes_replicate⟩
  rw [hnow.tryAcquire_iff, limit_asked, limit_create]

/-- Two requests fill a budget of two; the window that opens a second later has room again. -/
theorem decides_as_sliding_window_refilled :
    (((create 5 2).asked [1000000000, 1000000000]).tryAcquire 2000000000).1 = true ↔
      within 10 20 (windows ((create 5 2).granted [1000000000, 1000000000])) < 2 :=
  (decides_as_sliding_window 5 2 [1000000000, 1000000000] 2000000000 (by decide)).1

/-! ## Real time -/

/-- How many of `times` lie in the interval of `length` nanoseconds that opens at `start`. -/
def inInterval (start length : Nat) (times : List UInt64) : Nat :=
  times.countP fun now => start ≤ now.toNat ∧ now.toNat < start + length

/-- The requests of an interval lie in the windows it touches. -/
theorem inInterval_le_within {start length k w : Nat} (hfirst : w < start / 100000000 + k)
    (hlast : (start + length - 1) / 100000000 ≤ w) (times : List UInt64) :
    inInterval start length times ≤ within k w (windows times) := by
  unfold within windows
  rw [List.countP_map]
  refine List.countP_mono_left ?_
  intro now _ hin
  simp only [decide_eq_true_eq, Function.comp_apply] at hin ⊢
  rw [windowId_toNat]
  have hopen : start / 100000000 ≤ now.toNat / 100000000 := Nat.div_le_div_right hin.1
  have hclose : now.toNat / 100000000 ≤ (start + length - 1) / 100000000 := Nat.div_le_div_right (by omega)
  omega

/-- Eleven windows hold at most two budgets: the first ten hold one, the last one another. -/
theorem within_eleven {limit w : Nat} {vs : List Nat} (hle : ∀ w, within 10 w vs ≤ limit) :
    within 11 (w + 1) vs ≤ 2 * limit := by
  have hsplit : within 11 (w + 1) vs ≤ within 10 w vs + within 1 (w + 1) vs := within_add 10 1 w vs
  have hone : within 1 (w + 1) vs ≤ within 10 (w + 1) vs := by
    refine List.countP_mono_left ?_
    intro v _ hin
    simp only [decide_eq_true_eq] at hin ⊢
    omega
  have hten := hle w
  have hnext := hle (w + 1)
  omega

/-- In real time: a second that opens with a window holds at most the limit, so
does any interval of up to 900,000,001 ns, and any second at most twice the limit. -/
theorem real_time_budget (capacity tokensPerSec : UInt64) (times : List UInt64) (hclock : times.Pairwise (· ≤ ·)) :
    (∀ window, inInterval (window * 100000000) 1000000000 ((create capacity tokensPerSec).granted times) ≤
      min capacity.toNat tokensPerSec.toNat) ∧
    (∀ start length, length ≤ 900000001 → inInterval start length ((create capacity tokensPerSec).granted times) ≤
      min capacity.toNat tokensPerSec.toNat) ∧
    ∀ start, inInterval start 1000000000 ((create capacity tokensPerSec).granted times) ≤
      2 * min capacity.toNat tokensPerSec.toNat := by
  have hle := within_granted capacity tokensPerSec hclock
  refine ⟨?_, ?_, ?_⟩
  · intro window
    exact (inInterval_le_within (w := window + 9) (by omega) (by omega) _).trans (hle _)
  · intro start length hlength
    exact (inInterval_le_within (w := start / 100000000 + 9) (by omega) (by omega) _).trans (hle _)
  · intro start
    exact (inInterval_le_within (k := 11) (w := start / 100000000 + 9 + 1) (by omega) (by omega) _).trans
      (within_eleven hle)

theorem real_time_budget_burst :
    inInterval 99999999 1000000000 ((create 1 1).granted [99999999, 1000000000]) ≤ 2 * min 1 1 :=
  (real_time_budget 1 1 [99999999, 1000000000] (by decide)).2.2 99999999

/-- A request at the end of one window and one at the start of the tenth window
after it: both are let through, 900,000,001 ns apart, with a budget of one a second. -/
theorem burst_across_windows :
    ¬ ∀ (capacity tokensPerSec : UInt64) (times : List UInt64), times.Pairwise (· ≤ ·) → (∀ now ∈ times, now ≠ 0) →
      ∀ start, inInterval start 1000000000 ((create capacity tokensPerSec).granted times) ≤
        min capacity.toNat tokensPerSec.toNat := by
  intro h
  have hburst := h 1 1 [99999999, 1000000000] (by decide) (by simp) 99999999
  exact absurd hburst (by decide +kernel)

end BistColo.Domain.Throttler
