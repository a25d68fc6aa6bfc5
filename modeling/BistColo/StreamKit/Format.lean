import Mathlib.Data.List.Basic
import Mathlib.Logic.ExistsUnique
/-!
# Formats of a fixed width

A `Format` writes a value to exactly `width` bytes and reads it back, whatever
follows them, and every string of that width is what it writes for some value:
the two directions are inverse to each other. `Format.getList` reads a given
number of values that stand one behind the other.
-/

namespace StreamKit

structure Format (α : Type*) where
  width : Nat
  put : α → List UInt8
  get : List UInt8 → α
  length_put : ∀ a, (put a).length = width
  get_put : ∀ a rest, get (put a ++ rest) = a
  put_get : ∀ bs, bs.length = width → put (get bs) = bs

namespace Format

variable {α : Type*} (f : Format α)

/-- A string of the right size is written for exactly one value. -/
theorem existsUnique {bs : List UInt8} (h : bs.length = f.width) : ∃! a, f.put a = bs := by
  refine ⟨f.get bs, f.put_get bs h, ?_⟩
  rintro a rfl
  simpa using (f.get_put a []).symm

/-- Only the first `width` bytes are read. -/
theorem get_take {bs : List UInt8} (h : f.width ≤ bs.length) : f.get (bs.take f.width) = f.get bs := by
  have htake : (bs.take f.width).length = f.width := List.length_take_of_le h
  have hget := f.get_put (f.get (bs.take f.width)) (bs.drop f.width)
  rw [f.put_get _ htake, List.take_append_drop] at hget
  exact hget.symm

/-- The two directions of a format of `n` bytes: what is written has that size
and is read back, and each string of that size is written for exactly one value. -/
def RoundTrips (put : α → List UInt8) (get : List UInt8 → α) (n : Nat) : Prop :=
  (∀ a, (put a).length = n ∧ get (put a) = a) ∧ ∀ bs, bs.length = n → ∃! a, put a = bs

theorem roundTrips : RoundTrips f.put f.get f.width := by
  constructor
  · intro a
    exact ⟨f.length_put a, by simpa using f.get_put a []⟩
  · intro bs h
    exact f.existsUnique h

/-! ## Values in a row -/

def putList (as : List α) : List UInt8 := as.flatMap f.put

def getList (k : Nat) (bs : List UInt8) : List α := (List.range k).map fun i => f.get (bs.drop (f.width * i))

@[simp] theorem length_putList (as : List α) : (f.putList as).length = f.width * as.length := by
  induction as with
  | nil => rfl
  | cons a as ih =>
    rw [putList, List.flatMap_cons, List.length_append, f.length_put, List.length_cons, Nat.mul_succ, ← ih]
    exact Nat.add_comm _ _

theorem getList_succ (k : Nat) (bs : List UInt8) :
    f.getList (k + 1) bs = f.get bs :: f.getList k (bs.drop f.width) := by
  simp [getList, List.range_succ_eq_map, List.drop_drop, Nat.mul_succ, Nat.add_comm]

@[simp] theorem length_getList (k : Nat) (bs : List UInt8) : (f.getList k bs).length = k := by
  simp [getList]

theorem getList_putList (as : List α) (rest : List UInt8) : f.getList as.length (f.putList as ++ rest) = as := by
  induction as with
  | nil => rfl
  | cons a as ih =>
    have hcons : f.putList (a :: as) ++ rest = f.put a ++ (f.putList as ++ rest) := List.append_assoc ..
    rw [List.length_cons, getList_succ, hcons, f.get_put, List.drop_left' (f.length_put a), ih]

theorem putList_getList {k : Nat} {bs : List UInt8} (h : bs.length = f.width * k) : f.putList (f.getList k bs) = bs := by
  induction k generalizing bs with
  | zero => exact (List.eq_nil_of_length_eq_zero h).symm
  | succ k ih =>
    rw [Nat.mul_succ] at h
    have htake : (bs.take f.width).length = f.width := List.length_take_of_le (by omega)
    have hdrop : (bs.drop f.width).length = f.width * k := by
      rw [List.length_drop]
      omega
    rw [getList_succ, putList, List.flatMap_cons, ← f.get_take (by omega), f.put_get _ htake, ← putList, ih hdrop,
      List.take_append_drop]

end Format

end StreamKit
