import Mathlib.Data.List.DropRight
import Mathlib.Tactic.IntervalCases
/-!
# Numbers and fixed-width fields in byte strings

Big-endian numbers of a given width (`toBE`, `ofBE`), decimal text
(`decText`, `zeroPad`, `readDigits`) and byte fields of a fixed width
(`Field`), filled from a string by cutting it or padding it on the right, and
read back without the padding, also byte by byte in loops.
-/

namespace StreamKit

/-! ## Big-endian numbers -/

/-- The low `w` bytes of `n`, most significant first. -/
def toBE : Nat → Nat → List UInt8
  | 0, _ => []
  | w + 1, n => toBE w (n / 256) ++ [UInt8.ofNat n]

/-- The number a byte string stands for, most significant byte first. -/
def ofBE (bs : List UInt8) : Nat := bs.foldl (fun n b => n * 256 + b.toNat) 0

@[simp] theorem length_toBE (w n : Nat) : (toBE w n).length = w := by
  induction w generalizing n with
  | zero => rfl
  | succ w ih => simp [toBE, ih]

theorem ofBE_concat (bs : List UInt8) (b : UInt8) : ofBE (bs ++ [b]) = ofBE bs * 256 + b.toNat := by
  simp [ofBE]

theorem ofBE_toBE (w n : Nat) : ofBE (toBE w n) = n % 256 ^ w := by
  induction w generalizing n with
  | zero => simp [toBE, ofBE, Nat.mod_one]
  | succ w ih =>
    have hmod : n % 256 ^ (w + 1) = n % 256 + 256 * (n / 256 % 256 ^ w) := by rw [pow_succ', Nat.mod_mul]
    rw [toBE, ofBE_concat, ih, hmod, UInt8.toNat_ofNat']
    omega

/-- A byte string is the encoding of the number it stands for. -/
theorem toBE_ofBE {w : Nat} {bs : List UInt8} (h : bs.length = w) : toBE w (ofBE bs) = bs := by
  subst h
  induction bs using List.reverseRecOn with
  | nil => rfl
  | append_singleton bs b ih =>
    have hb := b.toNat_lt
    have hdiv : (ofBE bs * 256 + b.toNat) / 256 = ofBE bs := by omega
    have hlow : UInt8.ofNat (ofBE bs * 256 + b.toNat) = b := by
      rw [← UInt8.toNat_inj, UInt8.toNat_ofNat']
      omega
    rw [ofBE_concat, List.length_append, List.length_singleton, toBE, hdiv, hlow, ih]

theorem ofBE_lt (bs : List UInt8) : ofBE bs < 256 ^ bs.length := by
  induction bs using List.reverseRecOn with
  | nil => simp [ofBE]
  | append_singleton bs b ih =>
    have hb := b.toNat_lt
    rw [ofBE_concat, List.length_append, List.length_singleton, pow_succ]
    omega

/-! ## Decimal text -/

/-- The digits of `n` as ASCII text, without leading zeros. -/
def decText (n : Nat) : List UInt8 := (Nat.toDigits 10 n).map Char.toUInt8

/-- Text filled up with zeros on the left to at least `w` characters. -/
def zeroPad (w : Nat) (text : List UInt8) : List UInt8 := List.replicate (w - text.length) 48 ++ text

def isDigit (b : UInt8) : Bool := 48 ≤ b && b ≤ 57

/-- The number a string of digits denotes, read on from `n`. -/
def readDigits (n : Nat) (bs : List UInt8) : Nat := bs.foldl (fun n b => n * 10 + (b.toNat - 48)) n

@[simp] theorem readDigits_append (n : Nat) (as bs : List UInt8) :
    readDigits n (as ++ bs) = readDigits (readDigits n as) bs := by
  simp [readDigits]

theorem digitChar_toUInt8 {d : Nat} (h : d < 10) : (Nat.digitChar d).toUInt8 = UInt8.ofNat (48 + d) := by
  interval_cases d <;> decide

theorem decText_small {n : Nat} (h : n < 10) : decText n = [UInt8.ofNat (48 + n)] := by
  simp [decText, Nat.toDigits_of_lt_base h, digitChar_toUInt8 h]

theorem decText_step {n : Nat} (h : 10 ≤ n) : decText n = decText (n / 10) ++ [UInt8.ofNat (48 + n % 10)] := by
  simp [decText, Nat.toDigits_of_base_le (by decide) h, digitChar_toUInt8 (Nat.mod_lt n (by decide))]

/-- Induction on the digits of a number. -/
theorem dec_induction {motive : Nat → Prop} (n : Nat) (small : ∀ n, n < 10 → motive n)
    (step : ∀ n, 10 ≤ n → motive (n / 10) → motive n) : motive n := by
  induction n using Nat.strongRecOn with
  | _ n ih =>
    by_cases h : n < 10
    · exact small n h
    · exact step n (by omega) (ih (n / 10) (by omega))

theorem readDigits_decText (n : Nat) : readDigits 0 (decText n) = n := by
  induction n using dec_induction with
  | small n h =>
    rw [decText_small h]
    simp only [readDigits, List.foldl_cons, List.foldl_nil, UInt8.toNat_ofNat']
    omega
  | step n h ih =>
    rw [decText_step h, readDigits_append, ih]
    simp only [readDigits, List.foldl_cons, List.foldl_nil, UInt8.toNat_ofNat']
    omega

theorem isDigit_ofNat {d : Nat} (h : d < 10) : isDigit (UInt8.ofNat (48 + d)) = true := by
  interval_cases d <;> decide

theorem isDigit_decText (n : Nat) : ∀ b ∈ decText n, isDigit b = true := by
  induction n using dec_induction with
  | small n h =>
    rw [decText_small h]
    simpa using isDigit_ofNat h
  | step n h ih =>
    rw [decText_step h]
    intro b hb
    rcases List.mem_append.1 hb with hb | hb
    · exact ih b hb
    · rw [List.mem_singleton] at hb
      subst hb
      exact isDigit_ofNat (Nat.mod_lt n (by decide))

theorem length_decText_le {n k : Nat} (hk : 0 < k) : (decText n).length ≤ k ↔ n < 10 ^ k := by
  rw [decText, List.length_map, Nat.length_toDigits_le_iff (by decide) hk]

theorem readDigits_zeros (k : Nat) : readDigits 0 (List.replicate k 48) = 0 := by
  induction k with
  | zero => rfl
  | succ k ih => simpa [readDigits, List.replicate_succ] using ih

@[simp] theorem readDigits_zeroPad (w n : Nat) : readDigits 0 (zeroPad w (decText n)) = n := by
  rw [zeroPad, readDigits_append, readDigits_zeros, readDigits_decText]

theorem isDigit_zeroPad (w n : Nat) : ∀ b ∈ zeroPad w (decText n), isDigit b = true := by
  intro b hb
  rcases List.mem_append.1 hb with hb | hb
  · rw [List.eq_of_mem_replicate hb]
    rfl
  · exact isDigit_decText n b hb

theorem length_zeroPad {w : Nat} {text : List UInt8} (h : text.length ≤ w) : (zeroPad w text).length = w := by
  rw [zeroPad, List.length_append, List.length_replicate]
  omega

/-! ## Fixed-width fields -/

theorem rdropWhile_replicate {p : UInt8 → Bool} {b : UInt8} (hb : p b = true) (l : List UInt8) (n : Nat) :
    (l ++ List.replicate n b).rdropWhile p = l.rdropWhile p := by
  induction n with
  | zero => rw [List.replicate_zero, List.append_nil]
  | succ n ih => rw [List.replicate_succ', ← List.append_assoc, List.rdropWhile_concat_pos _ _ _ hb, ih]

/-- A field of exactly `n` bytes. -/
@[ext]
structure Field (n : Nat) where
  bytes : List UInt8
  size : bytes.length = n
deriving DecidableEq

namespace Field

variable {n : Nat}

@[simp] theorem length_bytes (f : Field n) : f.bytes.length = n := f.size

/-- The first `n` bytes of `src`, filled up with `c` on the right. -/
def pad (c : UInt8) (n : Nat) (src : List UInt8) : Field n where
  bytes := src.take n ++ List.replicate (n - src.length) c
  size := by simp; omega

theorem bytes_pad (c : UInt8) (src : List UInt8) :
    (pad c n src).bytes = src.take n ++ List.replicate (n - src.length) c := rfl

/-- A string that fills the field is taken over unchanged. -/
theorem pad_full (c : UInt8) {src : List UInt8} (h : src.length = n) : (pad c n src).bytes = src := by
  simp [pad, ← h]

/-- The field without what fills it up. -/
def trim (c : UInt8) (f : Field n) : List UInt8 := f.bytes.rdropWhile (· = c)

theorem trim_pad (c : UInt8) (src : List UInt8) : (pad c n src).trim c = (src.take n).rdropWhile (· = c) :=
  rdropWhile_replicate (decide_eq_true rfl) _ _

/-- What is trimmed off is filled up again. -/
theorem pad_trim (c : UInt8) (f : Field n) : pad c n (f.trim c) = f := by
  have hsplit : f.trim c ++ f.bytes.rtakeWhile (· = c) = f.bytes := List.rdropWhile_append_rtakeWhile ..
  have hlen := congrArg List.length hsplit
  rw [List.length_append, length_bytes] at hlen
  have hfill : f.bytes.rtakeWhile (· = c) = List.replicate (n - (f.trim c).length) c := by
    refine List.eq_replicate_iff.2 ⟨by omega, ?_⟩
    intro b hb
    simpa using List.mem_rtakeWhile_imp hb
  refine Field.ext ?_
  rw [hfill] at hsplit
  rw [bytes_pad, List.take_of_length_le (by omega)]
  exact hsplit

/-- Strings fill a field alike exactly if their first `n` bytes do not differ
before the trailing filler. -/
theorem pad_eq_iff (c : UInt8) (s t : List UInt8) :
    pad c n s = pad c n t ↔ (s.take n).rdropWhile (· = c) = (t.take n).rdropWhile (· = c) := by
  rw [← trim_pad, ← trim_pad]
  constructor
  · exact congrArg (trim c)
  · intro htrim
    rw [← pad_trim c (pad c n s), htrim, pad_trim]

/-! ## Loops over a field -/

theorem length_foldl_set (f : Nat → UInt8) (is : List Nat) (bs : List UInt8) :
    (is.foldl (fun bs i => bs.set i (f i)) bs).length = bs.length := by
  induction is generalizing bs with
  | nil => rfl
  | cons i is ih => exact (ih (bs.set i (f i))).trans List.length_set

/-- `for (i = lo; i < hi; ++i) dst[i] = f(i);` -/
def assign (f : Nat → UInt8) (lo hi : Nat) (dst : Field n) : Field n where
  bytes := (List.range' lo (hi - lo)).foldl (fun bs i => bs.set i (f i)) dst.bytes
  size := (length_foldl_set f _ dst.bytes).trans dst.size

theorem getElem?_foldl_set (f : Nat → UInt8) (is : List Nat) (bs : List UInt8) (j : Nat) :
    (is.foldl (fun bs i => bs.set i (f i)) bs)[j]? = if j ∈ is ∧ j < bs.length then some (f j) else bs[j]? := by
  induction is generalizing bs with
  | nil => simp
  | cons i is ih =>
    rw [List.foldl_cons, ih, List.length_set, List.getElem?_set]
    grind

theorem getElem?_assign (f : Nat → UInt8) (lo hi : Nat) (dst : Field n) (j : Nat) :
    (assign f lo hi dst).bytes[j]? = if lo ≤ j ∧ j < hi ∧ j < n then some (f j) else dst.bytes[j]? := by
  refine (getElem?_foldl_set f _ dst.bytes j).trans ?_
  simp only [List.mem_range'_1, length_bytes]
  by_cases hj : lo ≤ j ∧ j < hi ∧ j < n
  · rw [if_pos hj, if_pos (by omega)]
  · rw [if_neg hj, if_neg (by omega)]

/-- A field that has the string in front and is filled up is the padded string. -/
theorem eq_pad {c : UInt8} {src : List UInt8} {f : Field n}
    (h : ∀ j < n, f.bytes[j]? = some (if j < src.length then src.getD j 0 else c)) : f = pad c n src := by
  refine Field.ext (List.ext_getElem? fun j => ?_)
  rw [bytes_pad]
  by_cases hn : j < n
  · rw [h j hn]
    split
    · rename_i hs
      rw [List.getElem?_append_left (by rw [List.length_take]; omega)]
      simp [hn, hs]
    · rw [List.getElem?_append_right (by rw [List.length_take]; omega), List.getElem?_replicate,
        if_pos (by rw [List.length_take]; omega)]
  · rw [List.getElem?_eq_none (by rw [length_bytes]; omega), List.getElem?_eq_none]
    rw [List.length_append, List.length_take, List.length_replicate]
    omega

/-- The string is copied, and then the rest is filled. -/
theorem fill_copy (c : UInt8) (src : List UInt8) (dst : Field n) :
    assign (fun _ => c) (min src.length n) n (assign (fun i => src.getD i 0) 0 (min src.length n) dst) = pad c n src := by
  refine eq_pad fun j hj => ?_
  rw [getElem?_assign, getElem?_assign]
  split
  · rw [if_neg (by omega)]
  · rw [if_pos (by omega), if_pos (by omega)]

/-- All is filled, and then the string is copied. -/
theorem copy_fill (c : UInt8) (src : List UInt8) (dst : Field n) :
    assign (fun i => src.getD i 0) 0 (min src.length n) (assign (fun _ => c) 0 n dst) = pad c n src := by
  refine eq_pad fun j hj => ?_
  rw [getElem?_assign, getElem?_assign]
  split
  · rw [if_pos (by omega)]
  · rw [if_pos (by omega), if_neg (by omega)]

/-- A field is copied as it is. -/
theorem copy_bytes (src dst : Field n) : assign (fun i => src.bytes.getD i 0) 0 n dst = src := by
  have hpad : pad 0 n src.bytes = src := Field.ext (pad_full 0 src.size)
  refine Eq.trans (eq_pad fun j hj => ?_) hpad
  rw [getElem?_assign, if_pos (by omega), if_pos (by rwa [length_bytes])]

/-- `while (k > 0 && bs[k - 1] == c) --k;` -/
def dropBack (c : UInt8) (bs : List UInt8) : Nat → Nat
  | 0 => 0
  | k + 1 => if bs.getD k 0 = c then dropBack c bs k else k + 1

theorem take_dropBack (c : UInt8) {bs : List UInt8} {k : Nat} (h : k ≤ bs.length) :
    bs.take (dropBack c bs k) = (bs.take k).rdropWhile (· = c) := by
  induction k with
  | zero => rfl
  | succ k ih =>
    have hk : k < bs.length := h
    have hget : bs.getD k 0 = bs[k] := by simp [List.getD_eq_getElem?_getD, hk]
    rw [dropBack, hget, List.take_succ_eq_append_getElem hk]
    split
    · rename_i hc
      rw [List.rdropWhile_concat_pos _ _ _ (by simpa using hc), ih (by omega)]
    · rename_i hc
      rw [List.rdropWhile_concat_neg _ _ _ (by simpa using hc), ← List.take_succ_eq_append_getElem hk]

theorem take_dropBack_bytes (c : UInt8) (f : Field n) : f.bytes.take (dropBack c f.bytes n) = f.trim c := by
  rw [take_dropBack c f.size.ge, List.take_of_length_le f.size.le]
  exact rfl

end Field

end StreamKit
