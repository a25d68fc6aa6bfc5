import Mathlib.Data.List.Basic
/-!
# Splitting a stream into frames

A `Splitter` finds the frame at the front of a buffer, if it is complete. Its
two laws are what makes a reader independent of how the stream is cut up: a
frame takes something off the buffer, and a complete frame stays the same when
more input arrives behind it. `frames_append` and `rest_append` are the laws for
whole buffers: splitting in two goes, keeping the unconsumed tail in between,
finds the same frames as splitting at once.
-/

namespace StreamKit

/-- A rule that takes the first complete frame off a buffer. -/
structure Splitter (α β : Type*) where
  next : List α → Option (β × List α)
  shrinks : ∀ {xs b r}, next xs = some (b, r) → r.length < xs.length
  stable : ∀ {xs b r} (ys), next xs = some (b, r) → next (xs ++ ys) = some (b, r ++ ys)

namespace Splitter

variable {α β : Type*} (P : Splitter α β)

/-- All complete frames in order, with the tail left over; `fuel` bounds their number. -/
def splitN : Nat → List α → List β × List α
  | 0, xs => ([], xs)
  | fuel + 1, xs =>
    match P.next xs with
    | none => ([], xs)
    | some (b, r) => (b :: (splitN fuel r).1, (splitN fuel r).2)

/-- A buffer of `n` elements holds at most `n` frames. -/
def split (xs : List α) : List β × List α := P.splitN xs.length xs

/-- The complete frames in a buffer. -/
def frames (xs : List α) : List β := (P.split xs).1

/-- What follows the last complete frame. -/
def rest (xs : List α) : List α := (P.split xs).2

@[simp] theorem next_nil : P.next [] = none := by
  cases h : P.next [] with
  | none => rfl
  | some p => exact absurd (P.shrinks h) (by simp)

@[simp] theorem splitN_nil (n : Nat) : P.splitN n [] = ([], []) := by
  cases n <;> simp [splitN]

/-- Any fuel that covers the buffer gives the same split. -/
theorem splitN_fuel (n m : Nat) (xs : List α) (hn : xs.length ≤ n) (hm : xs.length ≤ m) :
    P.splitN n xs = P.splitN m xs := by
  induction n generalizing m xs with
  | zero =>
    obtain rfl : xs = [] := List.eq_nil_of_length_eq_zero (by omega)
    simp
  | succ n ih =>
    cases m with
    | zero =>
      obtain rfl : xs = [] := List.eq_nil_of_length_eq_zero (by omega)
      simp
    | succ m =>
      simp only [splitN]
      split
      · rfl
      · rename_i b r h
        have hr := P.shrinks h
        rw [ih m r (by omega) (by omega)]

theorem split_none {xs : List α} (h : P.next xs = none) : P.split xs = ([], xs) := by
  rw [split, P.splitN_fuel _ (xs.length + 1) xs (by omega) (by omega)]
  simp [splitN, h]

theorem split_some {xs r : List α} {b : β} (h : P.next xs = some (b, r)) :
    P.split xs = (b :: P.frames r, P.rest r) := by
  have hr := P.shrinks h
  rw [split, P.splitN_fuel _ (xs.length + 1) xs (by omega) (by omega)]
  simp only [splitN, h]
  rw [P.splitN_fuel xs.length r.length r (by omega) (by omega)]
  rfl

@[simp] theorem split_eq (xs : List α) : P.split xs = (P.frames xs, P.rest xs) := rfl

theorem frames_none {xs : List α} (h : P.next xs = none) : P.frames xs = [] := by
  simp [frames, -split_eq, P.split_none h]

theorem rest_none {xs : List α} (h : P.next xs = none) : P.rest xs = xs := by
  simp [rest, -split_eq, P.split_none h]

theorem frames_some {xs r : List α} {b : β} (h : P.next xs = some (b, r)) :
    P.frames xs = b :: P.frames r := by
  simp [frames, -split_eq, P.split_some h]

theorem rest_some {xs r : List α} {b : β} (h : P.next xs = some (b, r)) : P.rest xs = P.rest r := by
  simp [rest, -split_eq, P.split_some h]

/-- Induction along the frames of a buffer. -/
theorem split_induction {motive : List α → Prop} (xs : List α)
    (done : ∀ xs, P.next xs = none → motive xs)
    (frame : ∀ xs b r, P.next xs = some (b, r) → motive r → motive xs) : motive xs := by
  induction hn : xs.length using Nat.strongRecOn generalizing xs with
  | _ n ih =>
    cases h : P.next xs with
    | none => exact done xs h
    | some p =>
      have := P.shrinks h
      exact frame xs p.1 p.2 h (ih p.2.length (by omega) p.2 rfl)

theorem frames_eq_nil_iff {xs : List α} : P.frames xs = [] ↔ P.next xs = none := by
  cases h : P.next xs with
  | none => simp [P.frames_none h]
  | some p => simp [P.frames_some (r := p.2) (b := p.1) h]

theorem length_frames_le (xs : List α) : (P.frames xs).length ≤ xs.length := by
  induction xs using P.split_induction with
  | done xs h =>
    rw [P.frames_none h]
    exact Nat.zero_le _
  | frame xs b r h ih =>
    have := P.shrinks h
    rw [P.frames_some h, List.length_cons]
    omega

/-- New input is split behind the tail the earlier input left. -/
theorem frames_append (xs ys : List α) : P.frames (xs ++ ys) = P.frames xs ++ P.frames (P.rest xs ++ ys) := by
  induction xs using P.split_induction with
  | done xs h => simp [P.frames_none h, P.rest_none h]
  | frame xs b r h ih => rw [P.frames_some (P.stable ys h), P.frames_some h, P.rest_some h, ih, List.cons_append]

theorem rest_append (xs ys : List α) : P.rest (xs ++ ys) = P.rest (P.rest xs ++ ys) := by
  induction xs using P.split_induction with
  | done xs h => rw [P.rest_none h]
  | frame xs b r h ih => rw [P.rest_some (P.stable ys h), P.rest_some h, ih]

/-- Encodings that `next` reads back are split back into what was encoded. -/
theorem split_encoded {γ : Type*} (enc : γ → List α) (dec : γ → β) (cs : List γ) (tail : List α)
    (henc : ∀ c ∈ cs, ∀ ys, P.next (enc c ++ ys) = some (dec c, ys)) (htail : P.next tail = none) :
    P.split (cs.flatMap enc ++ tail) = (cs.map dec, tail) := by
  induction cs with
  | nil => simp [P.frames_none htail, P.rest_none htail]
  | cons c cs ih =>
    have hc := henc c (by simp) (cs.flatMap enc ++ tail)
    have hcs := ih (fun d hd => henc d (by simp [hd]))
    rw [List.flatMap_cons, List.append_assoc, P.split_some hc]
    rw [split_eq, Prod.mk.injEq] at hcs
    simp [hcs.1, hcs.2]

/-- A piece off the front of an encoded stream is some of the encodings, and
an incomplete part of what follows them. -/
theorem encoded_prefix {γ : Type*} (enc : γ → List α) (dec : γ → β) (cs : List γ) (tail xs ys : List α)
    (henc : ∀ c ∈ cs, ∀ zs, P.next (enc c ++ zs) = some (dec c, zs)) (htail : P.next tail = none)
    (h : xs ++ ys = cs.flatMap enc ++ tail) :
    ∃ n t, xs = (cs.take n).flatMap enc ++ t ∧ P.next t = none ∧ t ++ ys = (cs.drop n).flatMap enc ++ tail := by
  induction cs generalizing xs with
  | nil =>
    refine ⟨0, xs, rfl, ?_, h⟩
    cases hn : P.next xs with
    | none => rfl
    | some p =>
      have hs := P.stable ys hn
      rw [h, List.flatMap_nil, List.nil_append, htail] at hs
      cases hs
  | cons c cs ih =>
    rw [List.flatMap_cons, List.append_assoc] at h
    rcases List.append_eq_append_iff.1 h with ⟨as, has, hys⟩ | ⟨bs, hbs, hcs⟩
    · cases hn : P.next xs with
      | none =>
        refine ⟨0, xs, rfl, hn, ?_⟩
        rw [h, List.drop_zero, List.flatMap_cons, List.append_assoc]
      | some p =>
        -- a complete frame in `xs` is all of `enc c`, so nothing of it is missing
        have hs := P.stable ys hn
        rw [h, henc c List.mem_cons_self, Option.some.injEq, Prod.mk.injEq] at hs
        have hlen := congrArg List.length hs.2
        rw [hys] at hlen
        simp only [List.length_append] at hlen
        obtain rfl : as = [] := List.eq_nil_of_length_eq_zero (by omega)
        rw [List.append_nil] at has
        subst has
        refine ⟨1, [], by simp, P.next_nil, ?_⟩
        rw [List.nil_append, List.drop_one, List.tail_cons, hys, List.nil_append]
    · obtain ⟨n, t, hxs, ht, hrest⟩ := ih bs (fun d hd => henc d (List.mem_cons_of_mem _ hd)) hcs.symm
      refine ⟨n + 1, t, ?_, ht, by rw [hrest, List.drop_succ_cons]⟩
      rw [hbs, hxs, List.take_succ_cons, List.flatMap_cons, List.append_assoc]

end Splitter

end StreamKit
