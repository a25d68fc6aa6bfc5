import BistColo.Domain.Prices
import BistColo.Runner.FixReplay
/-!
# The two price parsers

`parse_price` of the FIX runner beside `to_wire_price`. `Checked` leaves signed
overflow undefined, also that of the `int` which counts the digits behind the
point. The two read the same price of digits with one point
among them; `parsers_agree_iff` says for which other texts they do.
-/

open StreamKit
open BistColo.Domain.InstrumentCache (int64 wholeDigits behindWhole fracDigits JunkBeforePoint magnitude signed isPoint)

namespace BistColo.Runner.FixScenarioRunner

/-! ## Signed overflow -/

/-- What `Digits` holds, before it is cut to 64 bits. -/
structure Reading where
  whole : Nat := 0
  frac : Nat := 0
  fracDigits : Nat := 0
  seenDot : Bool := false

def body (s : Bytes) : Bytes :=
  match s with
  | 45 :: rest => rest
  | s => s

namespace Checked

def int32 (n : Nat) : Option Nat := if n < 2 ^ 31 then some n else none

def readDigit (d : Reading) (digit : Nat) : Option Reading :=
  if d.seenDot then do
    let ten ← int64 (d.frac * 10)
    let frac ← int64 (ten + digit)
    let fracDigits ← int32 (d.fracDigits + 1)
    some { d with frac, fracDigits }
  else do
    let ten ← int64 (d.whole * 10)
    let whole ← int64 (ten + digit)
    some { d with whole }

/-- Undefined, junk, or the digits. -/
def readPrice (d : Reading) : Bytes → Option (Option Reading)
  | [] => some (some d)
  | b :: rest =>
    if b = 46 then readPrice { d with seenDot := true } rest
    else if isDigit b then do
      let d ← readDigit d (b.toNat - 48)
      readPrice d rest
    else some none

def scaleFrac (d : Reading) (decimals : Nat) : Option Nat :=
  if d.fracDigits ≤ decimals then Domain.InstrumentCache.Checked.timesTen d.frac (decimals - d.fracDigits)
  else some (d.frac / 10 ^ (d.fracDigits - decimals))

def parsePrice (s : Bytes) (decimals : Int8) : Option Int32 := do
  match ← readPrice {} (body s) with
  | none => some 0
  | some d =>
    let scale ← Domain.InstrumentCache.Checked.timesTen 1 decimals.toInt.toNat
    let frac ← scaleFrac d decimals.toInt.toNat
    let product ← int64 (d.whole * scale)
    let v ← int64 (product + frac)
    some (if s.head? = some 45 then -Int32.ofNat v else Int32.ofNat v)

end Checked

/-! ## Wrapping -/

def Reading.wrap (d : Reading) : Digits where
  whole := Int64.ofNat d.whole
  frac := Int64.ofNat d.frac
  fracDigits := d.fracDigits
  seenDot := d.seenDot

theorem int64_eq_some {n m : Nat} : int64 n = some m ↔ n < 2 ^ 63 ∧ n = m := by simp [int64]
theorem int32_eq_some {n m : Nat} : Checked.int32 n = some m ↔ n < 2 ^ 31 ∧ n = m := by simp [Checked.int32]

theorem readDigit_wrap {d e : Reading} {b : UInt8} (hb : isDigit b = true)
    (h : Checked.readDigit d (b.toNat - 48) = some e) :
    readDigit d.wrap (Int64.ofInt (b.toNat - 48)) = e.wrap := by
  have hdigit : Int64.ofInt (b.toNat - 48) = Int64.ofNat (b.toNat - 48) := Domain.InstrumentCache.digit_eq hb
  unfold Checked.readDigit at h
  unfold readDigit
  rw [hdigit]
  cases hdot : d.seenDot with
  | true =>
    simp only [hdot, if_true, Option.bind_eq_bind, Option.bind_eq_some_iff, int64_eq_some, int32_eq_some] at h
    obtain ⟨_, ⟨-, rfl⟩, _, ⟨-, rfl⟩, _, ⟨-, rfl⟩, heq⟩ := h
    cases heq
    simp [Reading.wrap, hdot]
  | false =>
    simp only [hdot, Bool.false_eq_true, if_false, Option.bind_eq_bind, Option.bind_eq_some_iff, int64_eq_some] at h
    obtain ⟨_, ⟨-, rfl⟩, _, ⟨-, rfl⟩, heq⟩ := h
    cases heq
    simp [Reading.wrap, hdot]

theorem readPrice_wrap {d : Reading} {bs : Bytes} {r : Option Reading} (h : Checked.readPrice d bs = some r) :
    readPrice d.wrap bs = r.map Reading.wrap := by
  induction bs generalizing d with
  | nil =>
    cases h
    rfl
  | cons b bs ih =>
    unfold Checked.readPrice at h
    unfold readPrice
    by_cases hdot : b = 46
    · rw [if_pos hdot] at h ⊢
      exact ih h
    · rw [if_neg hdot] at h ⊢
      by_cases hdigit : isDigit b = true
      · rw [if_pos hdigit] at h ⊢
        obtain ⟨e, hread, hrest⟩ := Option.bind_eq_some_iff.1 h
        rw [readDigit_wrap hdigit hread]
        exact ih hrest
      · rw [if_neg hdigit] at h ⊢
        cases h
        rfl

theorem timesTen_eq_some {n k m : Nat} (h : Domain.InstrumentCache.Checked.timesTen n k = some m) : m = n * 10 ^ k := by
  induction k generalizing n with
  | zero =>
    cases h
    simp
  | succ k ih =>
    simp only [Domain.InstrumentCache.Checked.timesTen, Option.bind_eq_bind, Option.bind_eq_some_iff, int64_eq_some] at h
    obtain ⟨_, ⟨-, rfl⟩, hrest⟩ := h
    rw [ih hrest, Nat.mul_assoc, ← Nat.pow_succ']

theorem repeat_div_ten {n : Nat} (h : n < 2 ^ 63) (k : Nat) :
    Nat.repeat (fun x : Int64 => x / 10) k (Int64.ofNat n) = Int64.ofNat (n / 10 ^ k) := by
  induction k with
  | zero => simp [Nat.repeat]
  | succ k ih =>
    have hle : n / 10 ^ k ≤ n := Nat.div_le_self _ _
    have hdiv : Int64.ofNat (n / 10 ^ k) / 10 = Int64.ofNat (n / 10 ^ k / 10) :=
      (Int64.ofNat_div (lt_of_le_of_lt hle h) (by decide)).symm
    rw [Nat.repeat, ih, hdiv, Nat.div_div_eq_div_mul, ← pow_succ]

theorem scaleFrac_wrap {d : Reading} {decimals n : Nat} (hfrac : d.frac < 2 ^ 63)
    (h : Checked.scaleFrac d decimals = some n) : scaleFrac d.wrap decimals = Int64.ofNat n := by
  unfold Checked.scaleFrac at h
  unfold scaleFrac Reading.wrap
  by_cases hle : d.fracDigits ≤ decimals
  · rw [if_pos hle] at h ⊢
    rw [timesTen_eq_some h, Domain.InstrumentCache.pow10_eq, ← Int64.ofNat_mul]
  · rw [if_neg hle] at h ⊢
    cases h
    exact repeat_div_ten hfrac _

theorem parsePrice_body (s : Bytes) (decimals : Int8) : parsePrice s decimals =
    match readPrice {} (body s) with
    | none => 0
    | some d =>
      let v := d.whole * Domain.InstrumentCache.pow10 decimals.toInt.toNat + scaleFrac d decimals.toInt.toNat
      (if s.head? = some 45 then -v else v).toInt32 := by
  unfold parsePrice
  split
  rename_i neg digits hsplit
  split at hsplit
  · cases hsplit
    rfl
  · rename_i hne
    cases hsplit
    have hhead : ¬ s.head? = some 45 := by
      intro hhead
      obtain ⟨rest, rfl⟩ := List.head?_eq_some_iff.1 hhead
      exact hne rest rfl
    have hbody : body s = s := by
      unfold body
      split
      · exact absurd rfl (hne _)
      · rfl
    rw [hbody]
    cases readPrice {} s with
    | none => rfl
    | some d => exact congrArg Int64.toInt32 (if_neg hhead).symm

/-! ## What the text says -/

/-- A character of a price. -/
def pricePart (b : UInt8) : Bool := isDigit b || b = 46

def Plain (s : Bytes) : Prop := ∀ b ∈ body s, pricePart b = true

instance (s : Bytes) : Decidable (Plain s) := List.decidableBAll (fun b => pricePart b = true) (body s)

/-- The digits before the first point, as far as every character is part of a price. -/
def leading (bs : Bytes) : Bytes := bs.takeWhile isDigit

/-- All digits behind the first point, whether or not more points stand among them. -/
def trailing (bs : Bytes) : Bytes := ((bs.dropWhile isDigit).takeWhile pricePart).filter isDigit

theorem digits_filter (bs : Bytes) : StreamKit.Digits (bs.filter isDigit) := fun _ hb => (List.mem_filter.1 hb).2

theorem readDigit_frac {d : Reading} (hdot : d.seenDot = true) (digit : Nat) : Checked.readDigit d digit =
    if d.frac * 10 + digit < 2 ^ 63 ∧ d.fracDigits + 1 < 2 ^ 31 then
      some { d with frac := d.frac * 10 + digit, fracDigits := d.fracDigits + 1 } else none := by
  unfold Checked.readDigit int64 Checked.int32
  rw [if_pos hdot]
  by_cases hten : d.frac * 10 < 2 ^ 63
  · rw [if_pos hten, Option.bind_eq_bind, Option.bind_some]
    by_cases hfrac : d.frac * 10 + digit < 2 ^ 63
    · rw [if_pos hfrac, Option.bind_some]
      by_cases hcount : d.fracDigits + 1 < 2 ^ 31
      · rw [if_pos hcount, if_pos ⟨hfrac, hcount⟩]
        rfl
      · have hno : ¬ (d.frac * 10 + digit < 2 ^ 63 ∧ d.fracDigits + 1 < 2 ^ 31) := fun h => hcount h.2
        rw [if_neg hcount, if_neg hno]
        rfl
    · have hno : ¬ (d.frac * 10 + digit < 2 ^ 63 ∧ d.fracDigits + 1 < 2 ^ 31) := fun h => hfrac h.1
      rw [if_neg hfrac, if_neg hno]
      rfl
  · have hno : ¬ (d.frac * 10 + digit < 2 ^ 63 ∧ d.fracDigits + 1 < 2 ^ 31) := by omega
    rw [if_neg hten, if_neg hno]
    rfl

theorem readDigit_whole {d : Reading} (hdot : d.seenDot = false) (digit : Nat) : Checked.readDigit d digit =
    if d.whole * 10 + digit < 2 ^ 63 then some { d with whole := d.whole * 10 + digit } else none := by
  unfold Checked.readDigit int64
  rw [if_neg (by simp [hdot])]
  by_cases hten : d.whole * 10 < 2 ^ 63
  · rw [if_pos hten, Option.bind_eq_bind, Option.bind_some]
    by_cases hwhole : d.whole * 10 + digit < 2 ^ 63
    · rw [if_pos hwhole, if_pos hwhole]
      rfl
    · rw [if_neg hwhole, if_neg hwhole]
      rfl
  · rw [if_neg hten, if_neg (by omega)]
    rfl

theorem readFrac_eq {d : Reading} (hdot : d.seenDot = true) (hfrac : d.frac < 2 ^ 63) (hcount : d.fracDigits < 2 ^ 31)
    (bs : Bytes) : Checked.readPrice d bs =
      let ds := (bs.takeWhile pricePart).filter isDigit
      if readDigits d.frac ds < 2 ^ 63 ∧ d.fracDigits + ds.length < 2 ^ 31 then
        some (if bs.all pricePart then some { d with frac := readDigits d.frac ds, fracDigits := d.fracDigits + ds.length }
          else none)
      else none := by
  have hempty : readDigits d.frac [] < 2 ^ 63 ∧ d.fracDigits + 0 < 2 ^ 31 := ⟨hfrac, hcount⟩
  induction bs generalizing d with
  | nil => exact (if_pos hempty).symm
  | cons b bs ih =>
    unfold Checked.readPrice
    by_cases hpoint : b = 46
    · subst hpoint
      have hpart : pricePart 46 = true := rfl
      have hdigit : ¬ isDigit 46 = true := by decide
      have hsame : { d with seenDot := true } = d := by rw [← hdot]
      rw [if_pos rfl, hsame, ih hdot hfrac hcount hempty, List.takeWhile_cons_of_pos hpart, List.filter_cons_of_neg hdigit,
        List.all_cons, hpart, Bool.true_and]
    · rw [if_neg hpoint]
      by_cases hdigit : isDigit b = true
      · have hpart : pricePart b = true := by simp [pricePart, hdigit]
        have hnext : ∀ ds, readDigits d.frac (b :: ds) = readDigits (d.frac * 10 + (b.toNat - 48)) ds := fun _ => rfl
        have hgrow := Domain.InstrumentCache.readDigits_mono (d.frac * 10 + (b.toNat - 48))
          ((bs.takeWhile pricePart).filter isDigit)
        have hlen : d.fracDigits + (((bs.takeWhile pricePart).filter isDigit).length + 1) =
            d.fracDigits + 1 + ((bs.takeWhile pricePart).filter isDigit).length := by omega
        rw [if_pos hdigit, readDigit_frac hdot, List.takeWhile_cons_of_pos hpart, List.filter_cons_of_pos hdigit,
          List.all_cons, hpart, Bool.true_and]
        simp only [hnext, List.length_cons]
        rw [hlen]
        by_cases hfits : d.frac * 10 + (b.toNat - 48) < 2 ^ 63 ∧ d.fracDigits + 1 < 2 ^ 31
        · rw [if_pos hfits, Option.bind_eq_bind, Option.bind_some]
          exact @ih { d with frac := d.frac * 10 + (b.toNat - 48), fracDigits := d.fracDigits + 1 } hdot hfits.1 hfits.2 hfits
        · rw [if_neg hfits, if_neg (by omega)]
          rfl
      · have hpart : ¬ pricePart b = true := by simp [pricePart, hdigit, hpoint]
        rw [if_neg hdigit, List.takeWhile_cons_of_neg hpart]
        have hnone : (b :: bs).all pricePart = false := by simp [hpart]
        rw [hnone]
        exact (if_pos hempty).symm

theorem trailing_digit {b : UInt8} (h : isDigit b = true) (bs : Bytes) : trailing (b :: bs) = trailing bs := by
  unfold trailing
  rw [List.dropWhile_cons_of_pos h]

theorem readPrice_eq {n : Nat} (hn : n < 2 ^ 63) (bs : Bytes) : Checked.readPrice { whole := n } bs =
    if readDigits n (leading bs) < 2 ^ 63 ∧ readDigits 0 (trailing bs) < 2 ^ 63 ∧ (trailing bs).length < 2 ^ 31 then
      some (if bs.all pricePart then
        some ⟨readDigits n (leading bs), readDigits 0 (trailing bs), (trailing bs).length, bs.contains 46⟩ else none)
    else none := by
  induction bs generalizing n with
  | nil =>
    have hempty : readDigits n (leading []) < 2 ^ 63 ∧ readDigits 0 (trailing []) < 2 ^ 63 ∧ (trailing []).length < 2 ^ 31 :=
      ⟨hn, by decide, by decide⟩
    rw [if_pos hempty]
    rfl
  | cons b bs ih =>
    unfold Checked.readPrice
    by_cases hpoint : b = 46
    · subst hpoint
      have hleading : leading (46 :: bs) = [] := rfl
      have htrailing : trailing (46 :: bs) = (bs.takeWhile pricePart).filter isDigit := rfl
      have hfrac := @readFrac_eq { whole := n, seenDot := true } rfl (Nat.two_pow_pos 63) (Nat.two_pow_pos 31) bs
      simp only [Nat.zero_add] at hfrac
      rw [if_pos rfl, hfrac, hleading, htrailing]
      have hsame : readDigits n [] = n := rfl
      have hpart : pricePart 46 = true := rfl
      simp only [hsame, hn, true_and, List.all_cons, hpart, Bool.true_and]
      simp
    · rw [if_neg hpoint]
      by_cases hdigit : isDigit b = true
      · have hpart : pricePart b = true := by simp [pricePart, hdigit]
        have hleading : leading (b :: bs) = b :: leading bs := List.takeWhile_cons_of_pos hdigit
        have hnext : readDigits n (b :: leading bs) = readDigits (n * 10 + (b.toNat - 48)) (leading bs) := rfl
        have hgrow := Domain.InstrumentCache.readDigits_mono (n * 10 + (b.toNat - 48)) (leading bs)
        have hcontains : (b :: bs).contains 46 = bs.contains 46 := by simp [Ne.symm hpoint]
        rw [if_pos hdigit, readDigit_whole rfl, hleading, trailing_digit hdigit, hnext, hcontains, List.all_cons, hpart,
          Bool.true_and]
        by_cases hfits : n * 10 + (b.toNat - 48) < 2 ^ 63
        · rw [if_pos hfits, Option.bind_eq_bind, Option.bind_some]
          exact ih hfits
        · rw [if_neg hfits, if_neg (by omega)]
          rfl
      · have hpart : ¬ pricePart b = true := by simp [pricePart, hdigit, hpoint]
        have hleading : leading (b :: bs) = [] := List.takeWhile_cons_of_neg hdigit
        have htrailing : trailing (b :: bs) = [] := by
          unfold trailing
          rw [List.dropWhile_cons_of_neg hdigit, List.takeWhile_cons_of_neg hpart]
          rfl
        have hsame : readDigits n [] = n := rfl
        rw [if_neg hdigit, hleading, htrailing, hsame, if_pos ⟨hn, by decide, by decide⟩]
        simp [hpart]

/-! ## What comes of it -/

def fixMagnitude (s : Bytes) (decimals : Int8) : Nat :=
  shifted (leading (body s)) (trailing (body s)) decimals.toInt.toNat

/-- The characters before the first that is no part of a price are read without an overflow. -/
def ReadFits (s : Bytes) : Prop :=
  readDigits 0 (leading (body s)) < 2 ^ 63 ∧ readDigits 0 (trailing (body s)) < 2 ^ 63 ∧ (trailing (body s)).length < 2 ^ 31

instance (s : Bytes) : Decidable (ReadFits s) := inferInstanceAs (Decidable (_ ∧ _ ∧ _))

theorem readPrice_text (s : Bytes) : Checked.readPrice {} (body s) =
    if ReadFits s then
      some (if Plain s then
        some ⟨readDigits 0 (leading (body s)), readDigits 0 (trailing (body s)), (trailing (body s)).length,
          (body s).contains 46⟩ else none)
    else none := by
  have hall : (body s).all pricePart = true ↔ Plain s := List.all_eq_true
  have hread := @readPrice_eq 0 (Nat.two_pow_pos 63) (body s)
  simp only [hall] at hread
  exact hread

theorem sign_eq (s : Bytes) : (Domain.InstrumentCache.sign s).1 = decide (s.head? = some 45) := by
  unfold Domain.InstrumentCache.sign
  split
  · rfl
  · rfl
  · rename_i hminus hplus
    cases s with
    | nil => rfl
    | cons b rest =>
      have hb : b ≠ 45 := fun heq => hminus rest (by rw [heq])
      simp [hb]

theorem digits_trailing (bs : Bytes) : StreamKit.Digits (trailing bs) := digits_filter _

theorem scaleFrac_eq (s : Bytes) {room : Nat} (h : room ≤ 9) (whole : Nat) (seenDot : Bool) :
    Checked.scaleFrac ⟨whole, readDigits 0 (trailing (body s)), (trailing (body s)).length, seenDot⟩ room =
      some (readDigits 0 ((trailing (body s)).take room) * 10 ^ (room - (trailing (body s)).length)) := by
  have hfits := behind_fits (digits_trailing (body s)) room
  have hscale := Domain.InstrumentCache.frac_fits h
  unfold Checked.scaleFrac
  simp only
  by_cases hle : (trailing (body s)).length ≤ room
  · rw [if_pos hle]
    rw [List.take_of_length_le hle] at hfits ⊢
    exact Domain.InstrumentCache.Checked.timesTen_eq _ _ (hfits.trans hscale)
  · rw [if_neg hle, readDigits_take (digits_trailing (body s)), Nat.sub_eq_zero_of_le (by omega : room ≤ (trailing (body s)).length),
      pow_zero, Nat.mul_one]

theorem checked_parsePrice (s : Bytes) {decimals : Int8} (h : decimals.toInt.toNat ≤ 9) : Checked.parsePrice s decimals =
    if ReadFits s then
      if Plain s then
        if fixMagnitude s decimals < 2 ^ 63 then some (signed s (fixMagnitude s decimals)) else none
      else some 0
    else none := by
  unfold Checked.parsePrice
  rw [readPrice_text]
  by_cases hread : ReadFits s
  · rw [if_pos hread, if_pos hread, Option.bind_eq_bind, Option.bind_some]
    by_cases hplain : Plain s
    · have hscale := Domain.InstrumentCache.frac_fits h
      have hone := Domain.InstrumentCache.Checked.timesTen_eq 1 decimals.toInt.toNat (by rwa [Nat.one_mul])
      have hsum : readDigits 0 (leading (body s)) * 10 ^ decimals.toInt.toNat + readDigits 0 ((trailing (body s)).take
        decimals.toInt.toNat) * 10 ^ (decimals.toInt.toNat - (trailing (body s)).length) = fixMagnitude s decimals := rfl
      rw [if_pos hplain, if_pos hplain]
      simp only [hone, scaleFrac_eq s h, Option.bind_eq_bind, Option.bind_some, Nat.one_mul]
      unfold signed int64
      rw [sign_eq]
      by_cases hm : fixMagnitude s decimals < 2 ^ 63
      · have hproduct : readDigits 0 (leading (body s)) * 10 ^ decimals.toInt.toNat < 2 ^ 63 :=
          lt_of_le_of_lt (Nat.le_add_right _ _) hm
        rw [if_pos hproduct, Option.bind_some, hsum, if_pos hm, if_pos hm]
        simp
      · by_cases hproduct : readDigits 0 (leading (body s)) * 10 ^ decimals.toInt.toNat < 2 ^ 63
        · rw [if_pos hproduct, Option.bind_some, hsum, if_neg hm, if_neg hm]
          rfl
        · rw [if_neg hproduct, if_neg hm]
          rfl
    · rw [if_neg hplain, if_neg hplain]
  · rw [if_neg hread, if_neg hread]
    rfl

/-- Where nothing overflows, the source computes the same. -/
theorem parsePrice_of_checked {s : Bytes} {decimals : Int8} {v : Int32} (h : Checked.parsePrice s decimals = some v) :
    parsePrice s decimals = v := by
  obtain ⟨r, hread, hrest⟩ := Option.bind_eq_some_iff.1 h
  have hwrap : readPrice {} (body s) = r.map Reading.wrap := readPrice_wrap hread
  rw [parsePrice_body, hwrap]
  cases r with
  | none => exact Option.some.inj hrest
  | some d =>
    have hfrac : d.frac < 2 ^ 63 := by
      rw [readPrice_text] at hread
      split at hread
      · rename_i hfits
        split at hread
        · cases hread
          exact hfits.2.1
        · cases hread
      · cases hread
    simp only [Option.bind_eq_bind, Option.bind_eq_some_iff, int64_eq_some] at hrest
    obtain ⟨scale, hscale, frac, hfrac', product, ⟨-, rfl⟩, v', ⟨-, rfl⟩, hv⟩ := hrest
    simp only [Option.map_some, scaleFrac_wrap hfrac hfrac', Domain.InstrumentCache.pow10_eq, timesTen_eq_some hscale,
      Nat.one_mul] at hv ⊢
    have hwhole : d.wrap.whole = Int64.ofNat d.whole := rfl
    rw [hwhole, ← Int64.ofNat_mul, ← Int64.ofNat_add]
    rw [← Option.some.inj hv]
    split
    · rw [Int64.toInt32_neg, Int64.toInt32_ofNat']
    · rw [Int64.toInt32_ofNat']


/-! ## Where the two agree -/

/-- A text without another character is read by both from the same digits. -/
theorem Plain.sign_body {s : Bytes} (h : Plain s) : (Domain.InstrumentCache.sign s).2 = body s := by
  unfold Domain.InstrumentCache.sign
  split
  · rfl
  · rename_i rest
    exact absurd (h 43 (by simp [body])) (by decide)
  · rename_i hminus hplus
    unfold body
    split
    · rename_i rest
      exact absurd rfl (hminus rest)
    · rfl

theorem pricePart_of_not_digit {b : UInt8} (h : pricePart b = true) (hdigit : isDigit b = false) : b = 46 := by
  simpa [pricePart, hdigit] using h

theorem dropWhile_cons {bs rest : Bytes} {b : UInt8} (h : bs.dropWhile isDigit = b :: rest) :
    isDigit b = false ∧ b ∈ bs ∧ ∀ c ∈ rest, c ∈ bs := by
  have hhead := List.head?_dropWhile_not isDigit bs
  have hmem : ∀ c ∈ b :: rest, c ∈ bs := fun c hc => (List.dropWhile_sublist isDigit).mem (h ▸ hc)
  rw [h] at hhead
  exact ⟨by simpa using hhead, hmem b (by simp), fun c hc => hmem c (by simp [hc])⟩

theorem Plain.clean {s : Bytes} (h : Plain s) : ¬ JunkBeforePoint s := by
  rintro ⟨b, hb, hpoint⟩
  unfold behindWhole at hb
  rw [h.sign_body] at hb
  obtain ⟨rest, hrest⟩ := List.head?_eq_some_iff.1 hb
  obtain ⟨hdigit, hmem, -⟩ := dropWhile_cons hrest
  rw [pricePart_of_not_digit (h b hmem) hdigit] at hpoint
  exact absurd hpoint (by decide)

/-- The digits behind the point go on where a second point ends them for the other parser. -/
theorem Plain.exists_more {s : Bytes} (h : Plain s) : ∃ more, trailing (body s) = fracDigits s ++ more := by
  unfold fracDigits behindWhole trailing
  rw [h.sign_body]
  cases hbehind : (body s).dropWhile isDigit with
  | nil => exact ⟨[], rfl⟩
  | cons b rest =>
    obtain ⟨hdigit, hmem, hrest⟩ := dropWhile_cons hbehind
    have hall : ∀ c ∈ b :: rest, pricePart c = true := by
      intro c hc
      rcases List.mem_cons.1 hc with rfl | hc
      · exact h c hmem
      · exact h c (hrest c hc)
    have hkeep : (b :: rest).takeWhile pricePart = b :: rest := List.takeWhile_eq_self_iff.2 hall
    have hrun : (rest.takeWhile isDigit).filter isDigit = rest.takeWhile isDigit :=
      List.filter_eq_self.2 fun c hc => List.mem_takeWhile_imp hc
    refine ⟨(rest.dropWhile isDigit).filter isDigit, ?_⟩
    rw [hkeep, List.filter_cons_of_neg (by simp [hdigit])]
    conv_lhs => rw [← List.takeWhile_append_dropWhile (p := isDigit) (l := rest), List.filter_append, hrun]

theorem Plain.wholeDigits_eq {s : Bytes} (h : Plain s) : wholeDigits s = leading (body s) := by
  unfold wholeDigits
  rw [h.sign_body]
  rfl

/-- What stands behind a second point counts only here. -/
theorem Plain.magnitude_eq_iff {s : Bytes} (h : Plain s) (decimals : Int8) : fixMagnitude s decimals = magnitude s decimals ↔
    ∀ b ∈ ((trailing (body s)).take decimals.toInt.toNat).drop (fracDigits s).length, b = 48 := by
  obtain ⟨more, hmore⟩ := h.exists_more
  have hdigits : StreamKit.Digits (more.take (decimals.toInt.toNat - (fracDigits s).length)) := fun b hb =>
    digits_trailing (body s) b (hmore ▸ List.mem_append_right _ (List.mem_of_mem_take hb))
  have hwhole : wholeDigits s = leading (body s) := h.wholeDigits_eq
  have hpos : (10 : Nat) ^ (decimals.toInt.toNat - (fracDigits s).length - more.length) ≠ 0 := by positivity
  unfold fixMagnitude magnitude
  rw [hmore, shifted_append, hwhole, List.drop_take, List.drop_left, ← readDigits_eq_zero_iff hdigits, Nat.add_eq_left,
    Nat.mul_eq_zero]
  exact or_iff_left hpos

/-- Both parsers read the text without an overflow, and read the same price. -/
def Agree (s : Bytes) (decimals : Int8) : Prop :=
  Checked.parsePrice s decimals = some (parsePrice s decimals) ∧
    Domain.InstrumentCache.Checked.toWirePrice s decimals = some (Domain.InstrumentCache.toWirePrice s decimals) ∧
    parsePrice s decimals = Domain.InstrumentCache.toWirePrice s decimals

theorem agree_checked {s : Bytes} {decimals : Int8} (h : decimals.toInt.toNat ≤ 9) : Agree s decimals ↔
    ∃ v, Checked.parsePrice s decimals = some v ∧ Domain.InstrumentCache.Checked.toWirePrice s decimals = some v := by
  constructor
  · rintro ⟨hfix, houch, hsame⟩
    exact ⟨_, hfix, hsame ▸ houch⟩
  · rintro ⟨v, hfix, houch⟩
    rw [Agree, parsePrice_of_checked hfix, Domain.InstrumentCache.toWirePrice_of_checked h houch]
    exact ⟨hfix, houch, rfl⟩

/-- The other parser stops at junk, or 32 zero bits are left of the number. -/
def ReadsZero (s : Bytes) (decimals : Int8) : Prop :=
  JunkBeforePoint s ∧ readDigits 0 (wholeDigits s) < 2 ^ 63 ∨
    ¬ JunkBeforePoint s ∧ magnitude s decimals < 2 ^ 63 ∧ 2 ^ 32 ∣ magnitude s decimals

instance (s : Bytes) (decimals : Int8) : Decidable (ReadsZero s decimals) := inferInstanceAs (Decidable (_ ∧ _ ∨ _ ∧ _ ∧ _))

theorem readsZero_iff {s : Bytes} {decimals : Int8} (h : decimals.toInt.toNat ≤ 9) :
    ReadsZero s decimals ↔ Domain.InstrumentCache.Checked.toWirePrice s decimals = some 0 := by
  unfold ReadsZero
  by_cases hjunk : JunkBeforePoint s
  · rw [Domain.InstrumentCache.checked_junk hjunk]
    simp [hjunk]
  · rw [Domain.InstrumentCache.checked_clean hjunk h, ← Domain.InstrumentCache.signed_eq_zero_iff s]
    simp [hjunk]

theorem Plain.magnitude_eq {s : Bytes} (hplain : Plain s) {decimals : Int8} (h : decimals.toInt.toNat ≤ 9)
    (hsame : signed s (fixMagnitude s decimals) = signed s (magnitude s decimals)) :
    fixMagnitude s decimals = magnitude s decimals := by
  -- the digits behind the point are all that may differ
  have hwhole : wholeDigits s = leading (body s) := hplain.wholeDigits_eq
  have hfits := behind_fits (digits_trailing (body s)) decimals.toInt.toNat
  have hfits' := behind_fits (Domain.InstrumentCache.digits_fracDigits s) decimals.toInt.toNat
  have hscale : 10 ^ decimals.toInt.toNat < 2 ^ 32 := lt_of_le_of_lt (Nat.pow_le_pow_right (by decide) h) (by decide)
  refine Domain.InstrumentCache.signed_near hsame ?_ ?_
  · unfold fixMagnitude magnitude shifted
    rw [hwhole]
    omega
  · unfold fixMagnitude magnitude shifted
    rw [hwhole]
    omega

theorem Plain.agree_iff {s : Bytes} (hplain : Plain s) {decimals : Int8} (h : decimals.toInt.toNat ≤ 9) : Agree s decimals ↔
    ReadFits s ∧ magnitude s decimals < 2 ^ 63 ∧
      ∀ b ∈ ((trailing (body s)).take decimals.toInt.toNat).drop (fracDigits s).length, b = 48 := by
  rw [agree_checked h, checked_parsePrice s h, Domain.InstrumentCache.checked_clean hplain.clean h,
    ← hplain.magnitude_eq_iff, if_pos hplain]
  constructor
  · rintro ⟨v, hfix, houch⟩
    split at hfix
    · rename_i hread
      split at hfix
      · split at houch
        · rename_i hm
          have hsame : signed s (fixMagnitude s decimals) = signed s (magnitude s decimals) := by
            rw [Option.some.inj hfix, Option.some.inj houch]
          exact ⟨hread, hm, hplain.magnitude_eq h hsame⟩
        · cases houch
      · cases hfix
    · cases hfix
  · rintro ⟨hread, hm, hsame⟩
    rw [if_pos hread, hsame, if_pos hm]
    exact ⟨_, rfl, rfl⟩

/-- Where the parsers agree: behind a second point nothing but zeros counts,
or the one finds another character and the other reads 0 all the same. -/
theorem parsers_agree_iff (s : Bytes) {decimals : Int8} (h : decimals ≤ 9) : Agree s decimals ↔
    ReadFits s ∧
      (Plain s ∧ magnitude s decimals < 2 ^ 63 ∧
          (∀ b ∈ ((trailing (body s)).take decimals.toInt.toNat).drop (fracDigits s).length, b = 48) ∨
        ¬ Plain s ∧ ReadsZero s decimals) := by
  have hle := Domain.InstrumentCache.decimals_le h
  by_cases hplain : Plain s
  · rw [hplain.agree_iff hle]
    simp [hplain]
  · rw [agree_checked hle, checked_parsePrice s hle, readsZero_iff hle, if_neg hplain]
    by_cases hread : ReadFits s
    · simp [hread, hplain]
    · simp [hread]

theorem parsers_agree_iff_three : Agree (ascii "6.200") 3 ∧ Agree (ascii "-.5") 3 ∧ ¬ Agree (ascii "+5") 3 ∧ ¬ Agree (ascii "1.2.3") 3 := by
  refine ⟨?_, ?_, ?_, ?_⟩
  · rw [parsers_agree_iff _ (by decide)]
    decide +kernel
  · rw [parsers_agree_iff _ (by decide)]
    decide +kernel
  · rw [parsers_agree_iff _ (by decide)]
    decide +kernel
  · rw [parsers_agree_iff _ (by decide)]
    decide +kernel

/-- A comma is a point for the one and junk for the other. -/
theorem comma_price : parsePrice (ascii "1,5") 3 = 0 ∧ Domain.InstrumentCache.toWirePrice (ascii "1,5") 3 = 1500 ∧
    ¬ Agree (ascii "1,5") 3 := by
  have hfix : parsePrice (ascii "1,5") 3 = 0 := by decide +kernel
  have houch : Domain.InstrumentCache.toWirePrice (ascii "1,5") 3 = 1500 := by decide +kernel
  refine ⟨hfix, houch, ?_⟩
  rintro ⟨-, -, hsame⟩
  rw [hfix, houch] at hsame
  exact absurd hsame (by decide)

end BistColo.Runner.FixScenarioRunner
