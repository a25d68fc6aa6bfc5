import BistColo.StreamKit.Bytes
import Mathlib.Data.List.TakeDrop
/-!
# Scalars, errors, clock and text

`core/types.hpp`, `core/result.hpp`, `core/time.hpp` and `core/endian.hpp`,
and the C text functions the program prints and reads numbers with. A
`std::string` and a buffer are both `Bytes`; an error's text is a `String`.
The order token is a field of fourteen bytes, so no other width can be built.
-/

open StreamKit

namespace BistColo

abbrev Bytes := List UInt8

/-- The bytes of an ASCII literal. -/
def ascii (s : String) : Bytes := s.toList.map Char.toUInt8

/-- Raw bytes as they appear in an error text. -/
def text (bs : Bytes) : String := String.ofList (bs.map fun b => Char.ofNat b.toNat)

/-! ## Errors -/

inductive ErrorCategory
  | ok | io | protocol | validation | reject | timeout | throttled | stateMismatch | unsupported
deriving DecidableEq

structure Error where
  category : ErrorCategory
  code : Int := 0
  detail : String
deriving DecidableEq

abbrev Result (α : Type) := Except Error α

def makeError (cat : ErrorCategory) (detail : String) : Error := { category := cat, detail := detail }

/-! ## Clock -/

/-- The steady clock: what each reading returns, and how many were taken. -/
structure Clock where
  reading : Nat → UInt64
  ticks : Nat := 0

def Clock.monotonicNs (c : Clock) : UInt64 × Clock := (c.reading c.ticks, { c with ticks := c.ticks + 1 })

/-! ## Printing and reading numbers -/

/-- The text up to the first NUL. -/
def cstr (bs : Bytes) : Bytes := bs.takeWhile (· ≠ 0)

/-- `%0<w>llu` -/
def padded (w : Nat) (n : UInt64) : Bytes := zeroPad w (decText n.toNat)

/-- `snprintf(buf, sizeof buf, ...)` with the formatted text `out`: the text is
cut so that its NUL still fits, and what follows the NUL stays as it was. -/
def snprintf (buf out : Bytes) : Bytes :=
  let kept := out.take (buf.length - 1)
  kept ++ [0] ++ buf.drop (kept.length + 1)

/-- A buffer that has room for the NUL keeps its length. -/
theorem length_snprintf {buf : Bytes} (out : Bytes) (h : buf ≠ []) : (snprintf buf out).length = buf.length := by
  have := List.length_pos_iff.2 h
  simp only [snprintf, List.length_append, List.length_take, List.length_drop, List.length_singleton]
  omega

/-- The text with its NUL is longer than the buffer: only a prefix of it is kept. -/
theorem snprintf_cut {buf out : Bytes} (h : buf.length ≤ out.length) (hb : buf ≠ []) :
    snprintf buf out = out.take (buf.length - 1) ++ [0] := by
  have := List.length_pos_iff.2 hb
  rw [snprintf, List.length_take, Nat.min_eq_left (by omega), List.drop_of_length_le (by omega), List.append_nil]

def isSpace (b : UInt8) : Bool := b == 32 || (9 ≤ b && b ≤ 13)

/-- What `strtoull` makes of a text: nothing when no digit stands where the
number should start, and whether the value is out of range. -/
inductive Parsed
  | noConversion
  | outOfRange
  | value (n : UInt64)
deriving DecidableEq

def strtoullParse (bs : Bytes) : Parsed :=
  let s := (cstr bs).dropWhile isSpace
  let (neg, s) := match s with
    | 45 :: r => (true, r)
    | 43 :: r => (false, r)
    | s => (false, s)
  let digits := s.takeWhile isDigit
  if digits = [] then .noConversion
  else
    let n := readDigits 0 digits
    if 2 ^ 64 ≤ n then .outOfRange
    else .value (if neg then 0 - UInt64.ofNat n else UInt64.ofNat n)

/-- `std::strtoull(s, nullptr, 10)` -/
def strtoull (bs : Bytes) : UInt64 :=
  match strtoullParse bs with
  | .noConversion => 0
  | .outOfRange => UInt64.ofNat (2 ^ 64 - 1)
  | .value n => n

/-- `std::stoull(s)`, with the exceptions it throws as `none`. -/
def stoull (bs : Bytes) : Option UInt64 :=
  match strtoullParse bs with
  | .value n => some n
  | _ => none

/-- What follows a NUL is not read. -/
theorem cstr_nul (bs rest : Bytes) : cstr (bs ++ 0 :: rest) = cstr bs := by
  induction bs with
  | nil => simp [cstr]
  | cons b bs ih =>
    rw [cstr] at ih ⊢
    rw [cstr, List.cons_append, List.takeWhile_cons, List.takeWhile_cons, ih, cstr]

theorem cstr_eq_self {bs : Bytes} (h : ∀ b ∈ bs, b ≠ 0) : cstr bs = bs :=
  List.takeWhile_eq_self_iff.2 (by simpa using h)

theorem isDigit_ne_zero {b : UInt8} (h : isDigit b = true) : b ≠ 0 := by
  rintro rfl
  exact absurd h (by decide)

theorem isSpace_eq_false {b : UInt8} (h : isDigit b = true) : isSpace b = false := by
  simp only [isDigit, Bool.and_eq_true, decide_eq_true_eq, UInt8.le_iff_toNat_le, UInt8.reduceToNat] at h
  simp only [isSpace, Bool.or_eq_false_iff, beq_eq_false_iff_ne, ne_eq, Bool.and_eq_false_iff, decide_eq_false_iff_not,
    UInt8.le_iff_toNat_le, ← UInt8.toNat_inj, UInt8.reduceToNat]
  omega

theorem strtoullParse_nul (bs rest : Bytes) : strtoullParse (bs ++ 0 :: rest) = strtoullParse bs := by
  rw [strtoullParse, strtoullParse, cstr_nul]

/-- A text of digits is the number it denotes, if that fits. -/
theorem strtoullParse_digits {ds : Bytes} (hd : ∀ b ∈ ds, isDigit b = true) (hne : ds ≠ [])
    (hlt : readDigits 0 ds < 2 ^ 64) : strtoullParse ds = .value (UInt64.ofNat (readDigits 0 ds)) := by
  have hcstr : cstr ds = ds := cstr_eq_self fun b hb => isDigit_ne_zero (hd b hb)
  have hdigits : ds.takeWhile isDigit = ds := List.takeWhile_eq_self_iff.2 hd
  obtain ⟨b, bs, rfl⟩ := List.exists_cons_of_ne_nil hne
  have hb : isDigit b = true := hd b List.mem_cons_self
  have hspace : isSpace b = false := isSpace_eq_false hb
  have h43 : b ≠ 43 := by rintro rfl; exact absurd hb (by decide)
  have h45 : b ≠ 45 := by rintro rfl; exact absurd hb (by decide)
  rw [strtoullParse, hcstr, List.dropWhile_cons_of_neg (by simp [hspace])]
  split
  rename_i neg s hs
  split at hs
  · rename_i heq
    cases heq
    exact absurd rfl h45
  · rename_i heq
    cases heq
    exact absurd rfl h43
  · cases hs
    rw [hdigits, if_neg hne]
    dsimp only
    rw [if_neg (by omega), if_neg Bool.false_ne_true]

theorem strtoull_digits {ds : Bytes} (hd : ∀ b ∈ ds, isDigit b = true) (hne : ds ≠ [])
    (hlt : readDigits 0 ds < 2 ^ 64) (rest : Bytes) : strtoull (ds ++ 0 :: rest) = UInt64.ofNat (readDigits 0 ds) := by
  rw [strtoull, strtoullParse_nul, strtoullParse_digits hd hne hlt]

theorem isDigit_padded (w : Nat) (n : UInt64) : ∀ b ∈ padded w n, isDigit b = true := isDigit_zeroPad w n.toNat

@[simp] theorem readDigits_padded (w : Nat) (n : UInt64) : readDigits 0 (padded w n) = n.toNat :=
  readDigits_zeroPad w n.toNat

/-- Twenty digits hold any 64-bit number. -/
theorem length_padded (n : UInt64) : (padded 20 n).length = 20 := by
  have h : n.toNat < 10 ^ 20 := Nat.lt_trans n.toNat_lt (by decide)
  exact length_zeroPad ((length_decText_le (by decide)).2 h)

/-! ## Sizes -/

theorem ofNat_inj {n m : Nat} (hn : n < 2 ^ 64) (hm : m < 2 ^ 64) : UInt64.ofNat n = UInt64.ofNat m ↔ n = m := by
  rw [← UInt64.toNat_inj, UInt64.toNat_ofNat', UInt64.toNat_ofNat', Nat.mod_eq_of_lt hn, Nat.mod_eq_of_lt hm]

theorem ofNat_lt {n m : Nat} (hn : n < 2 ^ 64) (hm : m < 2 ^ 64) : UInt64.ofNat n < UInt64.ofNat m ↔ n < m := by
  rw [UInt64.lt_iff_toNat_lt, UInt64.toNat_ofNat', UInt64.toNat_ofNat', Nat.mod_eq_of_lt hn, Nat.mod_eq_of_lt hm]

/-! ## Reading through a pointer -/

/-- `n` bytes from offset `off` of the memory behind a pointer. What lies
behind the known bytes reads as zeros. -/
def peek (mem : Bytes) (off n : Nat) : Bytes := (mem.drop off).takeD n 0

@[simp] theorem length_peek (mem : Bytes) (off n : Nat) : (peek mem off n).length = n :=
  List.takeD_length ..

/-- Bytes that are all there are read as they are. -/
theorem peek_inside {mem : Bytes} {off n : Nat} (h : off + n ≤ mem.length) : peek mem off n = (mem.drop off).take n :=
  List.takeD_eq_take _ (by rw [List.length_drop]; omega)

/-- A read within the first `k` bytes does not depend on what follows them. -/
theorem peek_append {mem : Bytes} {off n : Nat} (h : off + n ≤ mem.length) (ys : Bytes) :
    peek (mem ++ ys) off n = peek mem off n := by
  rw [peek_inside h, peek_inside (by rw [List.length_append]; omega), List.drop_append_of_le_length (by omega),
    List.take_append_of_le_length (by rw [List.length_drop]; omega)]

/-! ## Wire scalars -/

def beU16 (n : UInt16) : Bytes := toBE 2 n.toNat
def beU32 (n : UInt32) : Bytes := toBE 4 n.toNat
def beU64 (n : UInt64) : Bytes := toBE 8 n.toNat
def beI32 (n : Int32) : Bytes := beU32 n.toUInt32

@[simp] theorem length_beU16 (n : UInt16) : (beU16 n).length = 2 := length_toBE ..
@[simp] theorem length_beU32 (n : UInt32) : (beU32 n).length = 4 := length_toBE ..
@[simp] theorem length_beU64 (n : UInt64) : (beU64 n).length = 8 := length_toBE ..
@[simp] theorem length_beI32 (n : Int32) : (beI32 n).length = 4 := length_toBE ..

/-! ### Fields of a message, read by their offset -/

def u8At (mem : Bytes) (off : Nat) : UInt8 := (peek mem off 1).headD 0
def u16At (mem : Bytes) (off : Nat) : UInt16 := UInt16.ofNat (ofBE (peek mem off 2))
def u32At (mem : Bytes) (off : Nat) : UInt32 := UInt32.ofNat (ofBE (peek mem off 4))
def u64At (mem : Bytes) (off : Nat) : UInt64 := UInt64.ofNat (ofBE (peek mem off 8))
def i32At (mem : Bytes) (off : Nat) : Int32 := (u32At mem off).toInt32

def fieldAt (mem : Bytes) (off n : Nat) : Field n := ⟨peek mem off n, length_peek mem off n⟩

@[simp] theorem ofBE_beU16 (n : UInt16) : ofBE (beU16 n) = n.toNat := by
  rw [beU16, ofBE_toBE]
  exact Nat.mod_eq_of_lt n.toNat_lt

@[simp] theorem ofBE_beU32 (n : UInt32) : ofBE (beU32 n) = n.toNat := by
  rw [beU32, ofBE_toBE]
  exact Nat.mod_eq_of_lt n.toNat_lt

@[simp] theorem ofBE_beU64 (n : UInt64) : ofBE (beU64 n) = n.toNat := by
  rw [beU64, ofBE_toBE]
  exact Nat.mod_eq_of_lt n.toNat_lt

@[simp] theorem ofNat_ofBE_beI32 (n : Int32) : Int32.ofNat (ofBE (beI32 n)) = n := by
  rw [beI32, ofBE_beU32, ← UInt32.toInt32_ofNat', UInt32.ofNat_toNat, Int32.toInt32_toUInt32]

/-- Two's complement, most significant byte first. -/
theorem ofBE_beI32 (n : Int32) : (ofBE (beI32 n) : Int) = n.toInt % 2 ^ 32 := by
  have hint : n.toInt = Int.bmod n.toBitVec.toNat (2 ^ 32) := BitVec.toInt_eq_toNat_bmod n.toBitVec
  have hlt : n.toUInt32.toNat < 2 ^ 32 := n.toUInt32.toNat_lt
  rw [beI32, ofBE_beU32, hint]
  exact (Int.emod_eq_of_lt (by omega) (by omega)).symm.trans (Int.bmod_emod ..).symm

theorem beU16_ofBE {bs : Bytes} (h : bs.length = 2) : beU16 (UInt16.ofNat (ofBE bs)) = bs := by
  have hlt : ofBE bs < 2 ^ 16 := by simpa [h] using ofBE_lt bs
  rw [beU16, UInt16.toNat_ofNat_of_lt' hlt, toBE_ofBE h]

theorem beU32_ofBE {bs : Bytes} (h : bs.length = 4) : beU32 (UInt32.ofNat (ofBE bs)) = bs := by
  have hlt : ofBE bs < 2 ^ 32 := by simpa [h] using ofBE_lt bs
  rw [beU32, UInt32.toNat_ofNat_of_lt' hlt, toBE_ofBE h]

theorem beU64_ofBE {bs : Bytes} (h : bs.length = 8) : beU64 (UInt64.ofNat (ofBE bs)) = bs := by
  have hlt : ofBE bs < 2 ^ 64 := by simpa [h] using ofBE_lt bs
  rw [beU64, UInt64.toNat_ofNat_of_lt' hlt, toBE_ofBE h]

/-! Writing what was read gives the bytes back. -/

theorem cons_u8At (mem : Bytes) (off : Nat) (rest : Bytes) : u8At mem off :: rest = peek mem off 1 ++ rest := by
  obtain ⟨b, hb⟩ := List.length_eq_one_iff.1 (length_peek mem off 1)
  rw [u8At, hb]
  rfl

@[simp] theorem beU16_u16At (mem : Bytes) (off : Nat) : beU16 (u16At mem off) = peek mem off 2 :=
  beU16_ofBE (length_peek ..)

@[simp] theorem beU32_u32At (mem : Bytes) (off : Nat) : beU32 (u32At mem off) = peek mem off 4 :=
  beU32_ofBE (length_peek ..)

@[simp] theorem beU64_u64At (mem : Bytes) (off : Nat) : beU64 (u64At mem off) = peek mem off 8 :=
  beU64_ofBE (length_peek ..)

@[simp] theorem beI32_i32At (mem : Bytes) (off : Nat) : beI32 (i32At mem off) = peek mem off 4 := by
  rw [beI32, i32At, UInt32.toUInt32_toInt32, beU32_u32At]

/-! Reading at the offset of a field gives what was written there. -/

@[simp] theorem peek_head (b : UInt8) (rest : Bytes) : peek (b :: rest) 0 1 = [b] := by
  simp [peek, List.takeD]

@[simp] theorem peek_here {bs : Bytes} {n : Nat} (h : bs.length = n) (rest : Bytes) : peek (bs ++ rest) 0 n = bs := by
  rw [peek_append (by omega), peek_inside (by omega), List.drop_zero, ← h, List.take_length]

/-- A field that ends before the offset is skipped. -/
@[simp] theorem peek_skip {bs : Bytes} {off : Nat} (h : bs.length ≤ off) (rest : Bytes) (n : Nat) :
    peek (bs ++ rest) off n = peek rest (off - bs.length) n := by
  rw [peek, peek, List.drop_append, List.drop_of_length_le h, List.nil_append]

@[simp] theorem peek_cons {off : Nat} (h : 0 < off) (b : UInt8) (rest : Bytes) (n : Nat) :
    peek (b :: rest) off n = peek rest (off - 1) n := by
  simpa using @peek_skip [b] off h rest n

/-- Two reads that meet are one. -/
theorem peek_adjacent (mem : Bytes) {off n off' : Nat} (h : off + n = off') (m : Nat) :
    peek mem off n ++ peek mem off' m = peek mem off (n + m) := by
  subst h
  unfold peek
  rw [← List.drop_drop]
  generalize mem.drop off = l
  induction n generalizing l with
  | zero => simp
  | succ n ih =>
    rw [Nat.add_right_comm, List.takeD_succ, List.takeD_succ, List.cons_append, ← ih]
    cases l <;> simp

theorem peek_all {mem : Bytes} {n : Nat} (h : mem.length = n) : peek mem 0 n = mem := by
  rw [peek_inside (by omega), List.drop_zero, ← h, List.take_length]

inductive Side | buy | sell | shortSell
deriving DecidableEq

def Side.toWire : Side → UInt8
  | .buy => 66
  | .sell => 83
  | .shortSell => 84

inductive TimeInForce | day | immediateOrCancel | fillOrKill
deriving DecidableEq

def TimeInForce.toWire : TimeInForce → UInt8
  | .day => 0
  | .immediateOrCancel => 3
  | .fillOrKill => 4

/-- `ReplaceKeep` is another name of `defaultForAccount`. -/
inductive OpenClose | defaultForAccount | open | closeNet | replaceDefault
deriving DecidableEq

def OpenClose.toWire : OpenClose → UInt8
  | .defaultForAccount => 0
  | .open => 1
  | .closeNet => 2
  | .replaceDefault => 4

def OpenClose.replaceKeep : OpenClose := .defaultForAccount

def isValidOpenCloseForReplace (v : UInt8) : Bool := v == 0 || v == 4

inductive ClientCategory
  | client | house | fund | investmentTrust | primaryDealerGovt | primaryDealerCorp | portfolioMgmt
deriving DecidableEq

def ClientCategory.toWire : ClientCategory → UInt8
  | .client => 1
  | .house => 2
  | .fund => 7
  | .investmentTrust => 9
  | .primaryDealerGovt => 10
  | .primaryDealerCorp => 11
  | .portfolioMgmt => 12

inductive OrderState | onBook | notOnBook | paused | ouchOwnershipLost
deriving DecidableEq

def OrderState.toWire : OrderState → UInt8
  | .onBook => 1
  | .notOnBook => 2
  | .paused => 98
  | .ouchOwnershipLost => 99

inductive MassQuoteStatus | accept | updated | canceled | unsolicitedUpdate | unsolicitedCancel | traded
deriving DecidableEq

def MassQuoteStatus.toWire : MassQuoteStatus → UInt32
  | .accept => 0
  | .updated => 1
  | .canceled => 2
  | .unsolicitedUpdate => 3
  | .unsolicitedCancel => 4
  | .traded => 5

/-! ## Order tokens -/

/-- Fourteen bytes, left-justified and padded with spaces. -/
abbrev OrderToken := Field 14

/-- Cuts or pads a text to a token. -/
def OrderToken.ofText (s : Bytes) : OrderToken := Field.pad 32 14 s

/-- The token without its trailing spaces. -/
def OrderToken.view (t : OrderToken) : Bytes := t.bytes.rdropWhile (· = 32)

end BistColo
