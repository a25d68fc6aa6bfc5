import BistColo.StreamKit.Bytes
import Mathlib.Algebra.Order.Floor.Ring
import Mathlib.Data.Rat.Floor
/-!
# Decimal fractions

What digits before and behind a point denote, and the whole number that is left
of it after the point has moved `d` places and the rest is cut off:
`floor_decimal` says that the first `d` digits behind the point decide it.
-/

namespace StreamKit

def Digits (ds : List UInt8) : Prop := ∀ b ∈ ds, isDigit b = true

instance (ds : List UInt8) : Decidable (Digits ds) := List.decidableBAll (fun b => isDigit b = true) ds

theorem isDigit_toNat {b : UInt8} (h : isDigit b = true) : 48 ≤ b.toNat ∧ b.toNat ≤ 57 := by
  simpa [isDigit, UInt8.le_iff_toNat_le] using h

/-! ## Strings of digits -/

theorem readDigits_shift (n : Nat) (ds : List UInt8) : readDigits n ds = n * 10 ^ ds.length + readDigits 0 ds := by
  induction ds generalizing n with
  | nil => simp [readDigits]
  | cons b ds ih =>
    have hstep : ∀ n, readDigits n (b :: ds) = readDigits (n * 10 + (b.toNat - 48)) ds := fun _ => rfl
    rw [hstep, hstep, ih, ih (0 * 10 + _), List.length_cons, pow_succ]
    ring

theorem readDigits_lt {ds : List UInt8} (h : Digits ds) : readDigits 0 ds < 10 ^ ds.length := by
  induction ds using List.reverseRecOn with
  | nil => simp [readDigits]
  | append_singleton ds b ih =>
    have hb := isDigit_toNat (h b (by simp))
    have hds := ih fun c hc => h c (List.mem_append_left _ hc)
    have hlast : readDigits 0 (ds ++ [b]) = readDigits 0 ds * 10 + (b.toNat - 48) := readDigits_append 0 ds [b]
    rw [hlast, List.length_append, List.length_singleton, pow_succ]
    omega

/-- The first digits of a number are what a division by a power of ten leaves. -/
theorem readDigits_take {ds : List UInt8} (h : Digits ds) (k : Nat) :
    readDigits 0 (ds.take k) = readDigits 0 ds / 10 ^ (ds.length - k) := by
  have hrest : Digits (ds.drop k) := fun b hb => h b (List.mem_of_mem_drop hb)
  have hlt := readDigits_lt hrest
  have hsplit : readDigits 0 ds = readDigits 0 (ds.take k) * 10 ^ (ds.length - k) + readDigits 0 (ds.drop k) := by
    rw [← List.length_drop, ← readDigits_shift, ← readDigits_append, List.take_append_drop]
  rw [List.length_drop] at hlt
  rw [hsplit, Nat.add_comm, Nat.add_mul_div_right _ _ (by positivity), Nat.div_eq_of_lt hlt, Nat.zero_add]

theorem readDigits_eq_zero_iff {ds : List UInt8} (h : Digits ds) : readDigits 0 ds = 0 ↔ ∀ b ∈ ds, b = 48 := by
  induction ds using List.reverseRecOn with
  | nil => simp [readDigits]
  | append_singleton ds b ih =>
    have hb := isDigit_toNat (h b (by simp))
    have hlast : readDigits 0 (ds ++ [b]) = readDigits 0 ds * 10 + (b.toNat - 48) := readDigits_append 0 ds [b]
    have hds := ih fun c hc => h c (List.mem_append_left _ hc)
    have hzero : b.toNat - 48 = 0 ↔ b = 48 := by
      have h48 : (48 : UInt8).toNat = 48 := rfl
      rw [← UInt8.toNat_inj, h48]
      omega
    rw [hlast, Nat.add_eq_zero_iff, Nat.mul_eq_zero, hds, hzero]
    simp [or_imp, forall_and]

/-! ## Fractions -/

/-- The number with these digits before and behind the point. -/
def decimal (whole frac : List UInt8) : ℚ := readDigits 0 whole + readDigits 0 frac / 10 ^ frac.length

/-- The digits before the point and the first `d` behind it, filled up with zeros. -/
def shifted (whole frac : List UInt8) (d : Nat) : Nat :=
  readDigits 0 whole * 10 ^ d + readDigits 0 (frac.take d) * 10 ^ (d - frac.length)

/-- More digits behind the point add what is left of them. -/
theorem shifted_append (whole ds es : List UInt8) (d : Nat) : shifted whole (ds ++ es) d =
    shifted whole ds d + readDigits 0 (es.take (d - ds.length)) * 10 ^ (d - ds.length - es.length) := by
  unfold shifted
  have hroom : (es.take (d - ds.length)).length + (d - ds.length - es.length) = d - ds.length := by
    rw [List.length_take]
    omega
  rw [List.take_append, readDigits_append, readDigits_shift (readDigits 0 (ds.take d)), List.length_append, ← Nat.sub_sub,
    Nat.add_mul, Nat.mul_assoc, ← pow_add, hroom, Nat.add_assoc]

/-- The digits behind the point make less than one. -/
theorem behind_fits {frac : List UInt8} (h : Digits frac) (d : Nat) :
    readDigits 0 (frac.take d) * 10 ^ (d - frac.length) < 10 ^ d := by
  have htake : Digits (frac.take d) := fun b hb => h b (List.mem_of_mem_take hb)
  have hlt := readDigits_lt htake
  have hsplit : 10 ^ d = 10 ^ (frac.take d).length * 10 ^ (d - frac.length) := by
    rw [← pow_add, List.length_take]
    congr 1
    omega
  rw [hsplit]
  exact Nat.mul_lt_mul_of_pos_right hlt (by positivity)

theorem decimal_nonneg (whole frac : List UInt8) : 0 ≤ decimal whole frac := by
  unfold decimal
  positivity

/-- What is left of a fraction after its point has moved. -/
theorem floor_decimal (whole : List UInt8) {frac : List UInt8} (h : Digits frac) (d : Nat) :
    ⌊decimal whole frac * 10 ^ d⌋ = (shifted whole frac d : ℤ) := by
  have hfrac : ⌊(readDigits 0 frac / 10 ^ frac.length * 10 ^ d : ℚ)⌋ =
      ((readDigits 0 (frac.take d) * 10 ^ (d - frac.length) : Nat) : ℤ) := by
    rcases Nat.le_total frac.length d with hle | hge
    · -- every digit counts
      have hpow : (10 : ℚ) ^ d = 10 ^ frac.length * 10 ^ (d - frac.length) := by
        rw [← pow_add, Nat.add_sub_cancel' hle]
      have hwhole : (readDigits 0 frac / 10 ^ frac.length * 10 ^ d : ℚ) =
          ((readDigits 0 frac * 10 ^ (d - frac.length) : Nat) : ℤ) := by
        rw [hpow]
        push_cast
        field_simp
      rw [hwhole, Int.floor_intCast, List.take_of_length_le hle]
    · have hpow : (10 : ℚ) ^ frac.length = 10 ^ d * 10 ^ (frac.length - d) := by
        rw [← pow_add, Nat.add_sub_cancel' hge]
      have hquot : (readDigits 0 frac / 10 ^ frac.length * 10 ^ d : ℚ) =
          ((readDigits 0 frac : Nat) : ℚ) / ((10 ^ (frac.length - d) : Nat) : ℚ) := by
        rw [hpow]
        push_cast
        field_simp
      rw [hquot, Rat.floor_natCast_div_natCast, readDigits_take h, Nat.sub_eq_zero_of_le hge, pow_zero, Nat.mul_one]
      rfl
  have hsum : decimal whole frac * 10 ^ d =
      ((readDigits 0 whole * 10 ^ d : Nat) : ℤ) + readDigits 0 frac / 10 ^ frac.length * 10 ^ d := by
    rw [decimal, add_mul]
    push_cast
    rfl
  rw [hsum, Int.floor_intCast_add, hfrac, shifted]
  push_cast
  rfl

/-! ## Cutting off toward zero -/

def truncate (x : ℚ) : ℤ := if 0 ≤ x then ⌊x⌋ else ⌈x⌉

theorem truncate_mono {x y : ℚ} (h : x ≤ y) : truncate x ≤ truncate y := by
  unfold truncate
  split
  · rename_i hx
    rw [if_pos (hx.trans h)]
    exact Int.floor_le_floor h
  · rename_i hx
    split
    · rename_i hy
      have hneg : ⌈x⌉ ≤ 0 := Int.ceil_le.2 (by simpa using (not_le.1 hx).le)
      exact hneg.trans (Int.floor_nonneg.2 hy)
    · exact Int.ceil_le_ceil h

theorem truncate_neg (x : ℚ) : truncate (-x) = -truncate x := by
  unfold truncate
  rcases lt_trichotomy x 0 with hx | rfl | hx
  · rw [if_pos (by linarith), if_neg (by linarith), Int.floor_neg]
  · simp
  · rw [if_neg (by linarith), if_pos hx.le, Int.ceil_neg]

theorem truncate_of_nonneg {x : ℚ} (h : 0 ≤ x) : truncate x = ⌊x⌋ := if_pos h

end StreamKit
