import BistColo.Domain.Instrument
import BistColo.StreamKit.Decimal
import Mathlib.Data.Int.ConditionallyCompleteOrder
/-!
# Price texts

What `to_wire_price` makes of a text. `Checked` is the same function with signed
overflow left undefined; `checked_junk` and `checked_clean` say where it is
defined and what it returns there. A numeral whose price fits comes out exactly (`exact_price`). The
digits behind the point end at any other character, and the result is cut to 32
bits: `price_honest_iff` says for which texts no other price comes of it.
-/

open StreamKit

namespace BistColo.Domain.InstrumentCache

/-! ## Signed overflow -/

/-- A 64-bit result, which is undefined if it overflows. Before the sign is
applied no value is negative. -/
def int64 (n : Nat) : Option Nat := if n < 2 ^ 63 then some n else none

namespace Checked

/-- The digits before the point: undefined, junk, or their number and what follows. -/
def wholePart (acc : Nat) : Bytes → Option (Option (Nat × Bytes))
  | [] => some (some (acc, []))
  | b :: rest =>
    if isPoint b then some (some (acc, b :: rest))
    else if isDigit b then do
      let ten ← int64 (acc * 10)
      let acc ← int64 (ten + (b.toNat - 48))
      wholePart acc rest
    else some none

def fracPart (acc : Nat) : Nat → Bytes → Option (Nat × Nat)
  | 0, _ => some (acc, 0)
  | room + 1, [] => some (acc, room + 1)
  | room + 1, b :: rest =>
    if isDigit b then do
      let ten ← int64 (acc * 10)
      let acc ← int64 (ten + (b.toNat - 48))
      fracPart acc room rest
    else some (acc, room + 1)

def behindPoint (room : Nat) : Bytes → Option (Nat × Nat)
  | [] => some (0, room)
  | _ :: rest => fracPart 0 room rest

/-- A loop of `*= 10`. -/
def timesTen (acc : Nat) : Nat → Option Nat
  | 0 => some acc
  | k + 1 => do
    let acc ← int64 (acc * 10)
    timesTen acc k

def toWirePrice (txt : Bytes) (decimals : Int8) : Option Int32 := do
  let room := decimals.toInt.toNat
  match ← wholePart 0 (sign txt).2 with
  | none => some 0
  | some (whole, rest) =>
    let (frac, left) ← behindPoint room rest
    let frac ← timesTen frac left
    let scale ← timesTen 1 room
    let product ← int64 (whole * scale)
    let v ← int64 (product + frac)
    some (if (sign txt).1 then -Int32.ofNat v else Int32.ofNat v)

end Checked

/-! ## What the text says -/

def wholeDigits (txt : Bytes) : Bytes := (sign txt).2.takeWhile isDigit

/-- The text from the first character on that is no digit. -/
def behindWhole (txt : Bytes) : Bytes := (sign txt).2.dropWhile isDigit

/-- The digits behind the point, as far as they go. -/
def fracDigits (txt : Bytes) : Bytes :=
  match behindWhole txt with
  | [] => []
  | _ :: rest => rest.takeWhile isDigit

/-- Another character comes before the first point. -/
def JunkBeforePoint (txt : Bytes) : Prop := ∃ b ∈ (behindWhole txt).head?, isPoint b = false

instance (txt : Bytes) : Decidable (JunkBeforePoint txt) :=
  inferInstanceAs (Decidable (∃ b ∈ (behindWhole txt).head?, isPoint b = false))

/-- The digits that count, as a number. -/
def magnitude (txt : Bytes) (decimals : Int8) : Nat := shifted (wholeDigits txt) (fracDigits txt) decimals.toInt.toNat

theorem digits_takeWhile (bs : Bytes) : Digits (bs.takeWhile isDigit) := fun _ hb => List.mem_takeWhile_imp hb

theorem isPoint_isDigit {b : UInt8} (h : isPoint b = true) : isDigit b = false := by
  have hb : b = 46 ∨ b = 44 := by simpa [isPoint] using h
  rcases hb with rfl | rfl
  · rfl
  · rfl

theorem int64_some {n : Nat} (h : n < 2 ^ 63) : int64 n = some n := if_pos h
theorem int64_none {n : Nat} (h : ¬ n < 2 ^ 63) : int64 n = none := if_neg h

theorem readDigits_mono (n : Nat) (ds : Bytes) : n ≤ readDigits n ds := by
  rw [readDigits_shift]
  have hpos : 0 < 10 ^ ds.length := by positivity
  exact (Nat.le_mul_of_pos_right n hpos).trans (Nat.le_add_right _ _)

theorem Checked.wholePart_eq (n : Nat) (hn : n < 2 ^ 63) (bs : Bytes) : Checked.wholePart n bs =
    if readDigits n (bs.takeWhile isDigit) < 2 ^ 63 then
      some (if (bs.dropWhile isDigit).head?.all isPoint then
        some (readDigits n (bs.takeWhile isDigit), bs.dropWhile isDigit) else none)
    else none := by
  induction bs generalizing n with
  | nil =>
    have hsame : readDigits n ([].takeWhile isDigit) = n := rfl
    rw [hsame, if_pos hn]
    rfl
  | cons b bs ih =>
    unfold Checked.wholePart
    by_cases hpoint : isPoint b = true
    · have hdigit := isPoint_isDigit hpoint
      rw [if_pos hpoint, List.takeWhile_cons_of_neg (by simp [hdigit]), List.dropWhile_cons_of_neg (by simp [hdigit])]
      have hsame : readDigits n [] = n := rfl
      rw [hsame, if_pos hn]
      simp [hpoint]
    · rw [if_neg hpoint]
      by_cases hdigit : isDigit b = true
      · rw [if_pos hdigit, List.takeWhile_cons_of_pos hdigit, List.dropWhile_cons_of_pos hdigit]
        have hnext : readDigits n (b :: bs.takeWhile isDigit) = readDigits (n * 10 + (b.toNat - 48)) (bs.takeWhile isDigit) :=
          rfl
        have hmono := readDigits_mono (n * 10 + (b.toNat - 48)) (bs.takeWhile isDigit)
        rw [hnext]
        by_cases hfits : n * 10 + (b.toNat - 48) < 2 ^ 63
        · rw [int64_some (by omega), Option.bind_eq_bind, Option.bind_some, int64_some hfits, Option.bind_some, ih _ hfits]
        · rw [if_neg (by omega)]
          by_cases hten : n * 10 < 2 ^ 63
          · rw [int64_some hten, Option.bind_eq_bind, Option.bind_some, int64_none hfits]
            rfl
          · rw [int64_none hten]
            rfl
      · rw [if_neg hdigit, List.takeWhile_cons_of_neg hdigit, List.dropWhile_cons_of_neg hdigit]
        have hsame : readDigits n [] = n := rfl
        rw [hsame, if_pos hn]
        simp [hpoint]

theorem Checked.fracPart_eq (n room : Nat) (bs : Bytes) (h : n * 10 ^ room + 10 ^ room ≤ 2 ^ 63) :
    Checked.fracPart n room bs =
      some (readDigits n ((bs.takeWhile isDigit).take room), room - (bs.takeWhile isDigit).length) := by
  induction room generalizing n bs with
  | zero => simp [Checked.fracPart, readDigits]
  | succ room ih =>
    cases bs with
    | nil => rfl
    | cons b bs =>
      unfold Checked.fracPart
      by_cases hdigit : isDigit b = true
      · have hb := isDigit_toNat hdigit
        -- the digit leaves room for those behind it
        have hroom : (n * 10 + (b.toNat - 48)) * 10 ^ room + 10 ^ room ≤ 2 ^ 63 := by
          calc (n * 10 + (b.toNat - 48)) * 10 ^ room + 10 ^ room = (n * 10 + (b.toNat - 48) + 1) * 10 ^ room := by ring
            _ ≤ (n * 10 + 10) * 10 ^ room := Nat.mul_le_mul_right _ (by omega)
            _ = n * 10 ^ (room + 1) + 10 ^ (room + 1) := by ring
            _ ≤ 2 ^ 63 := h
        have hone : 1 ≤ 10 ^ room := Nat.one_le_pow _ _ (by decide)
        have hfits : n * 10 + (b.toNat - 48) < 2 ^ 63 := by nlinarith
        rw [if_pos hdigit, int64_some (by omega), Option.bind_eq_bind, Option.bind_some, int64_some hfits,
          Option.bind_some, ih _ _ hroom, List.takeWhile_cons_of_pos hdigit, List.take_succ_cons, List.length_cons,
          Nat.add_sub_add_right]
        rfl
      · rw [if_neg hdigit, List.takeWhile_cons_of_neg hdigit]
        rfl

theorem Checked.timesTen_eq (n k : Nat) (h : n * 10 ^ k < 2 ^ 63) : Checked.timesTen n k = some (n * 10 ^ k) := by
  induction k generalizing n with
  | zero => simp [Checked.timesTen]
  | succ k ih =>
    have hnext : n * 10 * 10 ^ k < 2 ^ 63 := by
      rw [Nat.mul_assoc, ← Nat.pow_succ']
      exact h
    have hten : n * 10 < 2 ^ 63 := lt_of_le_of_lt (Nat.le_mul_of_pos_right _ (by positivity)) hnext
    rw [Checked.timesTen, int64_some hten, Option.bind_eq_bind, Option.bind_some, ih _ hnext, pow_succ']
    ring_nf

theorem digits_fracDigits (txt : Bytes) : Digits (fracDigits txt) := by
  unfold fracDigits
  split
  · simp [Digits]
  · exact digits_takeWhile _

/-! ## What comes of it -/

/-- The sign of the text, on a number cut to 32 bits. -/
def signed (txt : Bytes) (n : Nat) : Int32 := if (sign txt).1 then -Int32.ofNat n else Int32.ofNat n

theorem behindWhole_head (txt : Bytes) : JunkBeforePoint txt ↔ (behindWhole txt).head?.all isPoint = false := by
  unfold JunkBeforePoint
  cases (behindWhole txt).head? with
  | none => simp
  | some b => simp

theorem frac_fits {room : Nat} (h : room ≤ 9) : 10 ^ room < 2 ^ 63 :=
  lt_of_le_of_lt (Nat.pow_le_pow_right (by decide) h) (by decide)

theorem wholeDigits_le (txt : Bytes) (decimals : Int8) : readDigits 0 (wholeDigits txt) ≤ magnitude txt decimals :=
  (Nat.le_mul_of_pos_right _ (by positivity)).trans (Nat.le_add_right _ _)

/-- The digits behind the point, as the parser reads them. -/
theorem Checked.behindPoint_eq (txt : Bytes) {room : Nat} (h : room ≤ 9) :
    Checked.behindPoint room (behindWhole txt) =
      some (readDigits 0 ((fracDigits txt).take room), room - (fracDigits txt).length) := by
  unfold fracDigits
  cases behindWhole txt with
  | nil => simp [Checked.behindPoint, readDigits]
  | cons b rest =>
    refine Checked.fracPart_eq 0 room rest ?_
    have := frac_fits h
    omega

theorem Checked.wholePart_text (txt : Bytes) : Checked.wholePart 0 (sign txt).2 =
    if readDigits 0 (wholeDigits txt) < 2 ^ 63 then
      some (if (behindWhole txt).head?.all isPoint then some (readDigits 0 (wholeDigits txt), behindWhole txt) else none)
    else none := Checked.wholePart_eq 0 (by decide) _

theorem checked_junk {txt : Bytes} (hjunk : JunkBeforePoint txt) (decimals : Int8) :
    Checked.toWirePrice txt decimals = if readDigits 0 (wholeDigits txt) < 2 ^ 63 then some 0 else none := by
  have hhead := (behindWhole_head txt).1 hjunk
  unfold Checked.toWirePrice
  rw [Checked.wholePart_text, hhead]
  split
  · rfl
  · rfl

theorem checked_clean {txt : Bytes} (hclean : ¬ JunkBeforePoint txt) {decimals : Int8} (h : decimals.toInt.toNat ≤ 9) :
    Checked.toWirePrice txt decimals =
      if magnitude txt decimals < 2 ^ 63 then some (signed txt (magnitude txt decimals)) else none := by
  have hhead : (behindWhole txt).head?.all isPoint = true := by simpa [behindWhole_head] using hclean
  have hle := wholeDigits_le txt decimals
  have hscale := frac_fits h
  unfold Checked.toWirePrice
  rw [Checked.wholePart_text, hhead, if_pos rfl]
  by_cases hw : readDigits 0 (wholeDigits txt) < 2 ^ 63
  · -- the digits behind the point always fit, so the sum decides
    have hfits := behind_fits (digits_fracDigits txt) decimals.toInt.toNat
    have hfrac := Checked.timesTen_eq _ _ (hfits.trans hscale)
    have hone := Checked.timesTen_eq 1 decimals.toInt.toNat (by rwa [Nat.one_mul])
    rw [if_pos hw, Option.bind_eq_bind, Option.bind_some]
    simp only [Checked.behindPoint_eq txt h, hfrac, hone, Option.bind_eq_bind, Option.bind_some, Nat.one_mul]
    have hsum : readDigits 0 (wholeDigits txt) * 10 ^ decimals.toInt.toNat + readDigits 0 ((fracDigits txt).take
      decimals.toInt.toNat) * 10 ^ (decimals.toInt.toNat - (fracDigits txt).length) = magnitude txt decimals := rfl
    by_cases hm : magnitude txt decimals < 2 ^ 63
    · have hproduct : readDigits 0 (wholeDigits txt) * 10 ^ decimals.toInt.toNat < 2 ^ 63 :=
        lt_of_le_of_lt (Nat.le_add_right _ _) hm
      rw [if_pos hm, int64_some hproduct, Option.bind_some, hsum, int64_some hm]
      rfl
    · rw [if_neg hm]
      by_cases hproduct : readDigits 0 (wholeDigits txt) * 10 ^ decimals.toInt.toNat < 2 ^ 63
      · rw [int64_some hproduct, Option.bind_some, hsum, int64_none hm]
        rfl
      · rw [int64_none hproduct]
        rfl
  · rw [if_neg hw, if_neg (by omega)]
    rfl

/-! ## Wrapping, as the source is compiled -/

theorem digit_eq {b : UInt8} (h : isDigit b = true) : digit b = Int64.ofNat (b.toNat - 48) := by
  have hb := isDigit_toNat h
  unfold digit
  rw [← Int64.ofInt_eq_ofNat, Nat.cast_sub hb.1]
  rfl

theorem wholePart_eq (n : Nat) (bs : Bytes) : wholePart (Int64.ofNat n) bs =
    if (bs.dropWhile isDigit).head?.all isPoint then
      some (Int64.ofNat (readDigits n (bs.takeWhile isDigit)), bs.dropWhile isDigit) else none := by
  induction bs generalizing n with
  | nil => rfl
  | cons b bs ih =>
    unfold wholePart
    by_cases hpoint : isPoint b = true
    · have hdigit := isPoint_isDigit hpoint
      simp [hpoint, hdigit, readDigits]
    · rw [if_neg hpoint]
      by_cases hdigit : isDigit b = true
      · have hnext : Int64.ofNat n * 10 + digit b = Int64.ofNat (n * 10 + (b.toNat - 48)) := by
          rw [digit_eq hdigit, Int64.ofNat_add, Int64.ofNat_mul]
          rfl
        rw [if_pos hdigit, hnext, ih, List.takeWhile_cons_of_pos hdigit, List.dropWhile_cons_of_pos hdigit]
        rfl
      · simp [hpoint, hdigit]

theorem fracPart_eq (n room : Nat) (bs : Bytes) : fracPart (Int64.ofNat n) room bs =
    (Int64.ofNat (readDigits n ((bs.takeWhile isDigit).take room)), room - (bs.takeWhile isDigit).length) := by
  induction room generalizing n bs with
  | zero => simp [fracPart, readDigits]
  | succ room ih =>
    cases bs with
    | nil => rfl
    | cons b bs =>
      unfold fracPart
      by_cases hdigit : isDigit b = true
      · have hnext : Int64.ofNat n * 10 + digit b = Int64.ofNat (n * 10 + (b.toNat - 48)) := by
          rw [digit_eq hdigit, Int64.ofNat_add, Int64.ofNat_mul]
          rfl
        rw [if_pos hdigit, hnext, ih, List.takeWhile_cons_of_pos hdigit, List.take_succ_cons, List.length_cons,
          Nat.add_sub_add_right]
        rfl
      · rw [if_neg hdigit, List.takeWhile_cons_of_neg hdigit]
        rfl

theorem pow10_eq (n : Nat) : pow10 n = Int64.ofNat (10 ^ n) := by
  induction n with
  | zero => rfl
  | succ n ih =>
    rw [pow10, ih, pow_succ, Int64.ofNat_mul]
    rfl

def behindPoint (room : Nat) : Bytes → Int64 × Nat
  | [] => (0, room)
  | _ :: rest => fracPart 0 room rest

theorem behindPoint_eq (room : Nat) (txt : Bytes) : behindPoint room (behindWhole txt) =
    (Int64.ofNat (readDigits 0 ((fracDigits txt).take room)), room - (fracDigits txt).length) := by
  unfold fracDigits
  cases behindWhole txt with
  | nil => simp [behindPoint, readDigits]
  | cons b rest => exact fracPart_eq 0 room rest

theorem toWirePrice_eq (txt : Bytes) (decimals : Int8) : toWirePrice txt decimals =
    match wholePart 0 (sign txt).2 with
    | none => 0
    | some (whole, rest) =>
      let frac := behindPoint decimals.toInt.toNat rest
      let v := whole * pow10 decimals.toInt.toNat + frac.1 * pow10 frac.2
      (if (sign txt).1 then -v else v).toInt32 := by
  unfold toWirePrice
  split
  rename_i negative rest hsign
  simp only [hsign]
  cases wholePart 0 rest with
  | none => rfl
  | some p =>
    obtain ⟨whole, rest⟩ := p
    cases rest with
    | nil => rfl
    | cons b rest => rfl

theorem wholePart_text (txt : Bytes) : wholePart 0 (sign txt).2 =
    if (behindWhole txt).head?.all isPoint then some (Int64.ofNat (readDigits 0 (wholeDigits txt)), behindWhole txt)
    else none := wholePart_eq 0 _

theorem toWirePrice_junk {txt : Bytes} (hjunk : JunkBeforePoint txt) (decimals : Int8) :
    toWirePrice txt decimals = 0 := by
  rw [toWirePrice_eq, wholePart_text, (behindWhole_head txt).1 hjunk]
  rfl

theorem toWirePrice_clean {txt : Bytes} (hclean : ¬ JunkBeforePoint txt) (decimals : Int8) :
    toWirePrice txt decimals = signed txt (magnitude txt decimals) := by
  have hwhole := wholePart_text txt
  have hhead : (behindWhole txt).head?.all isPoint = true := by simpa [behindWhole_head] using hclean
  rw [hhead, if_pos rfl] at hwhole
  unfold signed magnitude shifted
  rw [toWirePrice_eq, hwhole]
  simp only [behindPoint_eq, pow10_eq, ← Int64.ofNat_mul, ← Int64.ofNat_add]
  split
  · rw [Int64.toInt32_neg, Int64.toInt32_ofNat']
  · rw [Int64.toInt32_ofNat']

/-- Where nothing overflows, the source computes the same. -/
theorem toWirePrice_of_checked {txt : Bytes} {decimals : Int8} (h : decimals.toInt.toNat ≤ 9) {v : Int32}
    (hv : Checked.toWirePrice txt decimals = some v) : toWirePrice txt decimals = v := by
  by_cases hjunk : JunkBeforePoint txt
  · rw [checked_junk hjunk] at hv
    rw [toWirePrice_junk hjunk]
    split at hv
    · exact Option.some.inj hv
    · cases hv
  · rw [checked_clean hjunk h] at hv
    rw [toWirePrice_clean hjunk]
    split at hv
    · exact Option.some.inj hv
    · cases hv

/-! ## Numerals -/

inductive Sign where
  | unsigned | plus | minus
deriving DecidableEq

def Sign.text : Sign → Bytes
  | .unsigned => []
  | .plus => [43]
  | .minus => [45]

/-- The texts that are a price: digits with a sign before them, and a point with more digits behind. -/
structure Numeral where
  sgn : Sign := .unsigned
  whole : Bytes
  frac : Option (UInt8 × Bytes) := none
  whole_digits : Digits whole
  frac_digits : ∀ p ∈ frac, isPoint p.1 = true ∧ Digits p.2

namespace Numeral

/-- The text from the point on. -/
def tail (n : Numeral) : Bytes := n.frac.elim [] fun p => p.1 :: p.2

def behind (n : Numeral) : Bytes := n.frac.elim [] Prod.snd

def text (n : Numeral) : Bytes := n.sgn.text ++ (n.whole ++ n.tail)

def value (n : Numeral) : ℚ := if n.sgn = .minus then -decimal n.whole n.behind else decimal n.whole n.behind

theorem behind_digits (n : Numeral) : Digits n.behind := by
  unfold behind
  cases hfrac : n.frac with
  | none => simp [Digits]
  | some p => exact (n.frac_digits p hfrac).2

theorem isPoint_of_head {n : Numeral} {b : UInt8} (h : n.tail.head? = some b) : isPoint b = true := by
  unfold tail at h
  cases hfrac : n.frac with
  | none => simp [hfrac] at h
  | some p =>
    have hb : p.1 = b := by simpa [hfrac] using h
    exact hb ▸ (n.frac_digits p hfrac).1

theorem sign_text (n : Numeral) : InstrumentCache.sign n.text = (decide (n.sgn = .minus), n.whole ++ n.tail) := by
  unfold text
  cases n.sgn with
  | plus => rfl
  | minus => rfl
  | unsigned =>
    -- neither a digit nor a point is a sign
    have hhead : ∀ b, (n.whole ++ n.tail).head? = some b → b ≠ 45 ∧ b ≠ 43 := by
      intro b hb
      cases hwhole : n.whole with
      | nil =>
        have hpoint := isPoint_of_head (by simpa [hwhole] using hb)
        refine ⟨?_, ?_⟩
        · rintro rfl; exact absurd hpoint (by decide)
        · rintro rfl; exact absurd hpoint (by decide)
      | cons c rest =>
        have hdigit : isDigit b = true := by
          have hc : c = b := by simpa [hwhole] using hb
          exact hc ▸ n.whole_digits c (by simp [hwhole])
        refine ⟨?_, ?_⟩
        · rintro rfl; exact absurd hdigit (by decide)
        · rintro rfl; exact absurd hdigit (by decide)
    change InstrumentCache.sign (n.whole ++ n.tail) = (false, n.whole ++ n.tail)
    unfold InstrumentCache.sign
    split
    · rename_i rest heq
      exact absurd rfl (hhead 45 (by simp [heq])).1
    · rename_i rest heq
      exact absurd rfl (hhead 43 (by simp [heq])).2
    · rfl

theorem split_text (n : Numeral) : wholeDigits n.text = n.whole ∧ behindWhole n.text = n.tail := by
  unfold wholeDigits behindWhole
  rw [sign_text, List.takeWhile_append_of_pos n.whole_digits, List.dropWhile_append_of_pos n.whole_digits]
  have htail : n.tail.takeWhile isDigit = [] ∧ n.tail.dropWhile isDigit = n.tail := by
    cases hcases : n.tail with
    | nil => exact ⟨rfl, rfl⟩
    | cons b rest =>
      have hdigit := isPoint_isDigit (isPoint_of_head (by simp [hcases] : n.tail.head? = some b))
      simp [hdigit]
  simp [htail]

theorem fracDigits_text (n : Numeral) : fracDigits n.text = n.behind := by
  unfold fracDigits
  rw [n.split_text.2]
  unfold tail behind
  cases hfrac : n.frac with
  | none => rfl
  | some p => exact List.takeWhile_eq_self_iff.2 (n.frac_digits p hfrac).2

theorem clean (n : Numeral) : ¬ JunkBeforePoint n.text := by
  rintro ⟨b, hb, hpoint⟩
  rw [n.split_text.2] at hb
  exact absurd (isPoint_of_head hb) (by simp [hpoint])

theorem magnitude_text (n : Numeral) (decimals : Int8) :
    magnitude n.text decimals = shifted n.whole n.behind decimals.toInt.toNat := by
  rw [magnitude, n.split_text.1, n.fracDigits_text]

end Numeral

/-- Every character is part of a number. -/
def WellFormed (txt : Bytes) : Prop := ¬ JunkBeforePoint txt ∧ Digits (behindWhole txt).tail

instance (txt : Bytes) : Decidable (WellFormed txt) := inferInstanceAs (Decidable (_ ∧ _))

theorem exists_numeral_iff (txt : Bytes) : (∃ n : Numeral, n.text = txt) ↔ WellFormed txt := by
  constructor
  · rintro ⟨n, rfl⟩
    refine ⟨n.clean, ?_⟩
    rw [n.split_text.2]
    unfold Numeral.tail
    cases hfrac : n.frac with
    | none => simp [Digits]
    | some p => exact (n.frac_digits p hfrac).2
  · rintro ⟨hclean, hdigits⟩
    have hsgn : ∃ sgn : Sign, sgn.text ++ (sign txt).2 = txt := by
      unfold sign
      split
      · exact ⟨.minus, rfl⟩
      · exact ⟨.plus, rfl⟩
      · exact ⟨.unsigned, rfl⟩
    obtain ⟨sgn, hsgn⟩ := hsgn
    have hparts : wholeDigits txt ++ behindWhole txt = (sign txt).2 := List.takeWhile_append_dropWhile
    cases hbehind : behindWhole txt with
    | nil =>
      let n : Numeral := { sgn, whole := wholeDigits txt, whole_digits := digits_takeWhile _, frac_digits := by simp }
      have htext : n.text = txt := by
        rw [← hsgn, ← hparts, hbehind]
        rfl
      exact ⟨n, htext⟩
    | cons b rest =>
      have hpoint : isPoint b = true := by
        by_contra hb
        exact hclean ⟨b, by simp [hbehind], by simpa using hb⟩
      rw [hbehind] at hdigits
      have hfrac : ∀ p ∈ some (b, rest), isPoint p.1 = true ∧ Digits p.2 := by
        rintro p hp
        cases hp
        exact ⟨hpoint, hdigits⟩
      let n : Numeral :=
        { sgn, whole := wholeDigits txt, frac := some (b, rest), whole_digits := digits_takeWhile _, frac_digits := hfrac }
      have htext : n.text = txt := by
        rw [← hsgn, ← hparts, hbehind]
        rfl
      exact ⟨n, htext⟩

/-! ## Prices that fit -/

/-- The scaled value, if `n` stands before the sign is applied. -/
def signedInt (txt : Bytes) (n : Nat) : ℤ := if (sign txt).1 then -n else n

theorem signed_toInt (txt : Bytes) (n : Nat) : (signed txt n).toInt = (signedInt txt n).bmod (2 ^ 32) := by
  unfold signed signedInt
  split
  · rw [Int32.toInt_neg, Int32.toInt_ofNat', Int.bmod_neg_bmod]
    rfl
  · exact Int32.toInt_ofNat'

/-- Whether the scaled value is a 32-bit number. -/
def Fits (txt : Bytes) (n : Nat) : Prop := if (sign txt).1 then n ≤ 2 ^ 31 else n < 2 ^ 31

instance (txt : Bytes) (n : Nat) : Decidable (Fits txt n) :=
  inferInstanceAs (Decidable (if (sign txt).1 then n ≤ 2 ^ 31 else n < 2 ^ 31))

theorem signed_exact_iff (txt : Bytes) (n : Nat) : (signed txt n).toInt = signedInt txt n ↔ Fits txt n := by
  have hlow := Int32.le_toInt (signed txt n)
  have hhigh := Int32.toInt_lt (signed txt n)
  have hsame := signed_toInt txt n
  unfold signedInt Fits at *
  split
  · rename_i hneg
    rw [if_pos hneg] at hsame
    constructor
    · intro heq
      omega
    · intro hfits
      rw [hsame]
      exact Int.bmod_eq_of_le (by norm_num; omega) (by omega)
  · rename_i hpos
    rw [if_neg hpos] at hsame
    constructor
    · intro heq
      omega
    · intro hfits
      rw [hsame]
      exact Int.bmod_eq_of_le (by omega) (by norm_num; omega)

theorem signed_eq_zero_iff (txt : Bytes) (n : Nat) : signed txt n = 0 ↔ 2 ^ 32 ∣ n := by
  have hzero : signed txt n = 0 ↔ (2 ^ 32 : ℤ) ∣ signedInt txt n := by
    rw [← Int32.toInt_inj, signed_toInt]
    exact Int.dvd_iff_bmod_eq_zero.symm
  have hsign : (2 ^ 32 : ℤ) ∣ signedInt txt n ↔ (2 ^ 32 : ℤ) ∣ n := by
    unfold signedInt
    split
    · exact dvd_neg
    · rfl
  rw [hzero, hsign]
  exact_mod_cast Int.natCast_dvd_natCast

/-- 32 bits tell numbers apart that are less than 2^32 apart. -/
theorem signed_near {txt : Bytes} {m n : Nat} (h : signed txt m = signed txt n) (hm : m < n + 2 ^ 32) (hn : n < m + 2 ^ 32) :
    m = n := by
  have hmod : (signedInt txt m).bmod (2 ^ 32) = (signedInt txt n).bmod (2 ^ 32) := by
    rw [← signed_toInt, ← signed_toInt, h]
  rw [Int.bmod_eq_bmod_iff_bmod_sub_eq_zero, ← Int.dvd_iff_bmod_eq_zero] at hmod
  obtain ⟨k, hk⟩ := hmod
  unfold signedInt at hk
  split at hk
  · push_cast at hk
    omega
  · push_cast at hk
    omega

theorem Numeral.truncate_value (n : Numeral) (decimals : Int8) :
    truncate (n.value * 10 ^ decimals.toInt.toNat) = signedInt n.text (magnitude n.text decimals) := by
  have hpos : 0 ≤ decimal n.whole n.behind * 10 ^ decimals.toInt.toNat :=
    mul_nonneg (decimal_nonneg _ _) (by positivity)
  have hfloor := floor_decimal n.whole n.behind_digits decimals.toInt.toNat
  rw [magnitude_text]
  unfold value signedInt
  rw [n.sign_text]
  by_cases hminus : n.sgn = .minus
  · rw [if_pos hminus, neg_mul, truncate_neg, truncate_of_nonneg hpos, hfloor, if_pos (by simpa using hminus)]
  · rw [if_neg hminus, truncate_of_nonneg hpos, hfloor, if_neg (by simpa using hminus)]

theorem decimals_le {decimals : Int8} (h : decimals ≤ 9) : decimals.toInt.toNat ≤ 9 := by
  have hle : decimals.toInt ≤ 9 := Int8.le_iff_toInt_le.1 h
  omega

theorem Fits.lt {txt : Bytes} {n : Nat} (h : Fits txt n) : n < 2 ^ 63 := by
  unfold Fits at h
  split at h
  · omega
  · omega

/-- A numeral whose price fits is read without an overflow. -/
theorem Numeral.price (n : Numeral) {decimals : Int8} (h : decimals ≤ 9) (hfits : Fits n.text (magnitude n.text decimals)) :
    Checked.toWirePrice n.text decimals = some (toWirePrice n.text decimals) ∧
      (toWirePrice n.text decimals).toInt = truncate (n.value * 10 ^ decimals.toInt.toNat) := by
  rw [toWirePrice_clean n.clean, checked_clean n.clean (decimals_le h), if_pos hfits.lt, n.truncate_value]
  exact ⟨rfl, (signed_exact_iff _ _).2 hfits⟩

theorem Numeral.abs_value (n : Numeral) : |n.value| = decimal n.whole n.behind := by
  unfold value
  split
  · rw [abs_neg, abs_of_nonneg (decimal_nonneg _ _)]
  · rw [abs_of_nonneg (decimal_nonneg _ _)]

theorem Numeral.fits (n : Numeral) {decimals : Int8} (h : |n.value| * 10 ^ decimals.toInt.toNat < 2 ^ 31) :
    Fits n.text (magnitude n.text decimals) := by
  have hlt : magnitude n.text decimals < 2 ^ 31 := by
    rw [n.abs_value] at h
    have hfloor := Int.floor_le (decimal n.whole n.behind * 10 ^ decimals.toInt.toNat)
    rw [floor_decimal n.whole n.behind_digits] at hfloor
    rw [n.magnitude_text]
    exact_mod_cast hfloor.trans_lt h
  unfold Fits
  split
  · exact hlt.le
  · exact hlt

/-- Prices are exact: what the digits say, cut off behind the last digit that
counts, so a smaller number is never a greater price. -/
theorem exact_price {decimals : Int8} (h : decimals ≤ 9) :
    (∀ x : Numeral, |x.value| * 10 ^ decimals.toInt.toNat < 2 ^ 31 →
      Checked.toWirePrice x.text decimals = some (toWirePrice x.text decimals) ∧
        (toWirePrice x.text decimals).toInt = truncate (x.value * 10 ^ decimals.toInt.toNat)) ∧
    ∀ x y : Numeral, |x.value| * 10 ^ decimals.toInt.toNat < 2 ^ 31 → |y.value| * 10 ^ decimals.toInt.toNat < 2 ^ 31 →
      x.value ≤ y.value → toWirePrice x.text decimals ≤ toWirePrice y.text decimals := by
  constructor
  · intro x hx
    exact x.price h (x.fits hx)
  · intro x y hx hy hle
    rw [Int32.le_iff_toInt_le, (x.price h (x.fits hx)).2, (y.price h (y.fits hy)).2]
    apply truncate_mono
    gcongr

theorem exact_price_cent :
    let x : Numeral :=
      { sgn := .minus, whole := [48], frac := some (46, [48, 49, 48, 57]), whole_digits := by decide, frac_digits := by decide }
    let y : Numeral := { whole := [53], whole_digits := by decide, frac_digits := by decide }
    toWirePrice x.text 3 = -10 ∧ (toWirePrice x.text 3).toInt = truncate (x.value * 10 ^ (3 : Int8).toInt.toNat) ∧
      toWirePrice x.text 3 ≤ toWirePrice y.text 3 := by
  intro x y
  have hx : |x.value| * 10 ^ (3 : Int8).toInt.toNat < 2 ^ 31 := by decide +kernel
  have hy : |y.value| * 10 ^ (3 : Int8).toInt.toNat < 2 ^ 31 := by decide +kernel
  have hxy : x.value ≤ y.value := by decide +kernel
  have hcent : toWirePrice x.text 3 = -10 := by decide +kernel
  exact ⟨hcent, ((exact_price (by decide)).1 x hx).2, (exact_price (by decide)).2 x y hx hy hxy⟩

/-! ## Texts that are no price -/

/-- What is returned is computed without an overflow, is no other price than
the text's, and 0 unless the text has a price of 32 bits. -/
def Honest (txt : Bytes) (decimals : Int8) : Prop :=
  Checked.toWirePrice txt decimals = some (toWirePrice txt decimals) ∧
    (toWirePrice txt decimals ≠ 0 →
      ∃ n : Numeral, n.text = txt ∧ truncate (n.value * 10 ^ decimals.toInt.toNat) = (toWirePrice txt decimals).toInt) ∧
    ((∀ n : Numeral, n.text = txt → truncate (n.value * 10 ^ decimals.toInt.toNat) ∉ Set.Ico (-2 ^ 31) (2 ^ 31)) →
      toWirePrice txt decimals = 0)

/-- Where the price is honest: junk shows before the point, or all 32 bits that
are left of the number are 0, or the text is a numeral and its price fits. -/
theorem price_honest_iff (txt : Bytes) {decimals : Int8} (h : decimals ≤ 9) : Honest txt decimals ↔
    JunkBeforePoint txt ∧ readDigits 0 (wholeDigits txt) < 2 ^ 63 ∨
      ¬ JunkBeforePoint txt ∧ magnitude txt decimals < 2 ^ 63 ∧
        (2 ^ 32 ∣ magnitude txt decimals ∨ WellFormed txt ∧ Fits txt (magnitude txt decimals)) := by
  by_cases hjunk : JunkBeforePoint txt
  · -- the answer is 0, once the digits before the junk are read
    have hzero := toWirePrice_junk hjunk decimals
    have hchecked := checked_junk hjunk decimals
    unfold Honest
    rw [hzero, hchecked]
    simp [hjunk]
  · have hchecked := checked_clean hjunk (decimals_le h)
    have hvalue := toWirePrice_clean hjunk decimals
    have hexact := signed_exact_iff txt (magnitude txt decimals)
    have hzero := signed_eq_zero_iff txt (magnitude txt decimals)
    rw [← hvalue] at hexact hzero
    constructor
    · rintro ⟨hdefined, hprice, -⟩
      have hlt : magnitude txt decimals < 2 ^ 63 := by
        by_contra hover
        rw [hchecked, if_neg hover] at hdefined
        cases hdefined
      refine .inr ⟨hjunk, hlt, ?_⟩
      by_cases hnone : toWirePrice txt decimals = 0
      · exact .inl (hzero.1 hnone)
      · obtain ⟨n, rfl, htrunc⟩ := hprice hnone
        rw [n.truncate_value] at htrunc
        exact .inr ⟨(exists_numeral_iff _).1 ⟨n, rfl⟩, hexact.1 htrunc.symm⟩
    · rintro (⟨hjunk', -⟩ | ⟨-, hlt, hcases⟩)
      · exact absurd hjunk' hjunk
      have hdefined : Checked.toWirePrice txt decimals = some (toWirePrice txt decimals) := by
        rw [hchecked, if_pos hlt, hvalue]
      rcases hcases with hdvd | ⟨hform, hfits⟩
      · have hnone := hzero.2 hdvd
        exact ⟨hdefined, fun hne => absurd hnone hne, fun _ => hnone⟩
      · obtain ⟨n, rfl⟩ := (exists_numeral_iff txt).2 hform
        have htrunc := (n.price h hfits).2
        refine ⟨hdefined, fun _ => ⟨n, rfl, htrunc.symm⟩, fun hout => absurd ?_ (hout n rfl)⟩
        rw [← htrunc]
        exact ⟨Int32.le_toInt _, Int32.toInt_lt _⟩

/-- The letter behind the price is not noticed, and it is no numeral. -/
theorem price_honest_iff_letter : toWirePrice (ascii "1.5x") 3 = 1500 ∧ ¬ Honest (ascii "1.5x") 3 ∧
    Honest (ascii "1x.5") 3 ∧ Honest (ascii "-6.2") 3 := by
  refine ⟨by decide +kernel, ?_, ?_, ?_⟩
  · rw [price_honest_iff _ (by decide)]
    decide +kernel
  · rw [price_honest_iff _ (by decide)]
    decide +kernel
  · rw [price_honest_iff _ (by decide)]
    decide +kernel

/-- Three million, with three decimals: the price has 32 bits left of it, and a sign. -/
theorem price_wraps : toWirePrice (ascii "3000000.000") 3 = -1294967296 ∧ ¬ Honest (ascii "3000000.000") 3 := by
  have hwraps : toWirePrice (ascii "3000000.000") 3 = -1294967296 := by decide +kernel
  refine ⟨hwraps, ?_⟩
  rintro ⟨-, hprice, -⟩
  obtain ⟨n, htext, htrunc⟩ := hprice (by rw [hwraps]; decide)
  rw [n.truncate_value, htext, hwraps] at htrunc
  exact absurd htrunc (by decide +kernel)

end BistColo.Domain.InstrumentCache
