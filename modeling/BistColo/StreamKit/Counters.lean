import Mathlib.Data.Nat.ModEq
/-!
# Counters that wrap

Two 64-bit counters that only count up say how many elements lie between them,
as long as these are fewer than `2 ^ 64`, whether or not one of them has
wrapped. In a ring of `2 ^ k` slots the low bits of an element's number are its
slot, and elements closer together than the ring is long never share one
(`slot_injective`).
-/

namespace StreamKit

/-- How many elements `x` is ahead of `y`. -/
def ahead (x y : UInt64) : Nat := (x - y).toNat

/-- The slot of element number `x` in a ring of `2 ^ k`. -/
def slot (k : Nat) (x : UInt64) : Nat := x.toNat % 2 ^ k

theorem ahead_eq (x y : UInt64) : ahead x y = (2 ^ 64 - y.toNat + x.toNat) % 2 ^ 64 := UInt64.toNat_sub ..

theorem ahead_self (x : UInt64) : ahead x x = 0 := by
  rw [ahead, UInt64.sub_self]
  rfl

theorem ahead_eq_zero {x y : UInt64} : ahead x y = 0 ↔ x = y := by
  have hx := x.toNat_lt
  have hy := y.toNat_lt
  rw [ahead_eq, ← UInt64.toNat_inj]
  omega

theorem ahead_succ {x y : UInt64} (h : ahead x y + 1 < 2 ^ 64) : ahead (x + 1) y = ahead x y + 1 := by
  have hx := x.toNat_lt
  have hy := y.toNat_lt
  rw [ahead_eq] at h ⊢
  rw [ahead_eq, UInt64.toNat_add, UInt64.toNat_one]
  omega

theorem ahead_catch_up {x y : UInt64} (h : ahead x y ≠ 0) : ahead x (y + 1) + 1 = ahead x y := by
  have hx := x.toNat_lt
  have hy := y.toNat_lt
  rw [ahead_eq] at h
  rw [ahead_eq, ahead_eq, UInt64.toNat_add, UInt64.toNat_one]
  omega

theorem add_ahead (x y : UInt64) : y + UInt64.ofNat (ahead x y) = x := by
  rw [ahead, UInt64.ofNat_toNat, UInt64.add_comm, UInt64.sub_add_cancel]

theorem ahead_add_ofNat {x y : UInt64} {i j : Nat} (hi : i < 2 ^ 64) (hj : j < 2 ^ 64) :
    x + UInt64.ofNat i = y + UInt64.ofNat j ↔ i = ahead y x + j ∨ i + 2 ^ 64 = ahead y x + j := by
  have hx := x.toNat_lt
  have hy := y.toNat_lt
  rw [← UInt64.toNat_inj, UInt64.toNat_add, UInt64.toNat_add, UInt64.toNat_ofNat_of_lt' hi, UInt64.toNat_ofNat_of_lt' hj,
    ahead_eq]
  omega

/-- Two stretches of numbers have none in common exactly if each ends before the other begins. -/
theorem apart_iff {x y : UInt64} {m n : Nat} (hm : 0 < m) (hn : 0 < n) (hm' : m < 2 ^ 64) (hn' : n < 2 ^ 64) :
    (∀ i < m, ∀ j < n, x + UInt64.ofNat i ≠ y + UInt64.ofNat j) ↔ m ≤ ahead y x ∧ n ≤ ahead x y := by
  have hx := x.toNat_lt
  have hy := y.toNat_lt
  have hlt : ahead y x < 2 ^ 64 := UInt64.toNat_lt _
  have hlt' : ahead x y < 2 ^ 64 := UInt64.toNat_lt _
  constructor
  · intro h
    constructor
    · -- the first of the one stretch is not in the other
      by_contra hless
      exact h (ahead y x) (by omega) 0 hn ((ahead_add_ofNat hlt (by omega)).2 (.inl rfl))
    · by_contra hless
      exact h 0 hm (ahead x y) (by omega) ((ahead_add_ofNat hlt' (by omega)).2 (.inl rfl)).symm
  · rintro ⟨hfirst, hsecond⟩ i hi j hj heq
    have hsum : ahead y x + ahead x y = 0 ∨ ahead y x + ahead x y = 2 ^ 64 := by
      rw [ahead_eq, ahead_eq]
      omega
    rcases (ahead_add_ofNat (by omega) (by omega)).1 heq with heq | heq
    · omega
    · omega

/-- A mask of the low bits gives the slot. -/
theorem toNat_and_mask {k : Nat} (hk : k < 64) (x : UInt64) : (x &&& (UInt64.ofNat (2 ^ k) - 1)).toNat = slot k x := by
  have hpow : 2 ^ k < 2 ^ 64 := Nat.pow_lt_pow_right (by omega) hk
  have hone : 1 ≤ UInt64.ofNat (2 ^ k) := by
    rw [UInt64.le_iff_toNat_le, UInt64.toNat_ofNat_of_lt' hpow, UInt64.toNat_one]
    exact Nat.two_pow_pos k
  rw [UInt64.toNat_and, UInt64.toNat_sub_of_le _ _ hone, UInt64.toNat_ofNat_of_lt' hpow, UInt64.toNat_one,
    Nat.and_two_pow_sub_one_eq_mod]
  rfl

/-- Counting on moves through the slots, also over the wrap. -/
theorem slot_add {k : Nat} (hk : k ≤ 64) (x : UInt64) (i : Nat) : slot k (x + UInt64.ofNat i) = (x.toNat + i) % 2 ^ k := by
  have hd : 2 ^ k ∣ 2 ^ 64 := Nat.pow_dvd_pow 2 hk
  rw [slot, UInt64.toNat_add, UInt64.toNat_ofNat', Nat.add_mod_mod, Nat.mod_mod_of_dvd _ hd]

theorem slot_injective {k : Nat} (hk : k ≤ 64) {x : UInt64} {i j : Nat} (hi : i < 2 ^ k) (hj : j < 2 ^ k)
    (h : slot k (x + UInt64.ofNat i) = slot k (x + UInt64.ofNat j)) : i = j := by
  rw [slot_add hk, slot_add hk] at h
  have hmod : i % 2 ^ k = j % 2 ^ k := Nat.ModEq.add_left_cancel' x.toNat h
  rwa [Nat.mod_eq_of_lt hi, Nat.mod_eq_of_lt hj] at hmod

end StreamKit
