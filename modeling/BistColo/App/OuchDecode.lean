import BistColo.Observability.AuditLog
import Mathlib.Algebra.Group.Nat.Even
/-!
# Reading the hex of the audit log

`hex_to_bytes` of `apps/tools/ouch_decode.cpp`: a loop that skips whitespace and
has a half byte in hand after every other digit. It is the inverse of `hex_dump`,
takes hex texts in other spellings as well, and refuses all other texts.
-/

open StreamKit

namespace BistColo.App.OuchDecode

open Ouch

/-! ## The decoder -/

def nibble (c : UInt8) : Option UInt8 :=
  if 48 ≤ c ∧ c ≤ 57 then some (c - 48)
  else if 97 ≤ c ∧ c ≤ 102 then some (c - 97 + 10)
  else if 65 ≤ c ∧ c ≤ 70 then some (c - 65 + 10)
  else none

structure Decoder where
  out : Bytes := []
  cur : UInt8 := 0
  /-- The next digit is the first of a byte. -/
  high : Bool := true

namespace Decoder

def read (d : Decoder) (v : UInt8) : Decoder :=
  if d.high then { d with cur := v <<< 4, high := false }
  else { out := d.out ++ [d.cur ||| v], cur := d.cur ||| v, high := true }

def finish (d : Decoder) : Except String Bytes := if d.high then .ok d.out else .error "odd number of hex digits\n"

/-- The loop. A program that exits is an error with its message. -/
def decode (d : Decoder) : Bytes → Except String Bytes
  | [] => d.finish
  | c :: hex =>
    if isSpace c then decode d hex
    else
      match nibble c with
      | none => .error ("invalid hex character: '" ++ text [c] ++ "'\n")
      | some v => decode (d.read v) hex

end Decoder

def hexToBytes (hex : Bytes) : Except String Bytes := Decoder.decode {} hex

/-! ## Hex texts -/

/-- A hex digit of either case. -/
def isHexDigit (c : UInt8) : Bool := 48 ≤ c && c ≤ 57 || 97 ≤ c && c ≤ 102 || 65 ≤ c && c ≤ 70

/-- Hex digits and whitespace, with an even number of digits. -/
def IsHex (hex : Bytes) : Prop := (∀ c ∈ hex, isSpace c ∨ isHexDigit c) ∧ Even (hex.countP isHexDigit)

/-- The text without whitespace. -/
def unspaced (hex : Bytes) : Bytes := hex.filter fun c => !isSpace c

/-- A letter in lower case. -/
def lower (c : UInt8) : UInt8 := if 65 ≤ c ∧ c ≤ 90 then c + 32 else c

/-! ## Digits -/

theorem isSpace_digit {c : UInt8} (h : isHexDigit c = true) : isSpace c = false := by
  have hall : ∀ k < 256, isHexDigit (UInt8.ofNat k) = true → isSpace (UInt8.ofNat k) = false := by decide +kernel
  have hc := hall c.toNat c.toNat_lt
  rw [UInt8.ofNat_toNat] at hc
  exact hc h

theorem nibble_digit {c : UInt8} (h : isHexDigit c = true) :
    ∃ v, nibble c = some v ∧ v.toNat < 16 ∧ hexDigits.getD v.toNat 0 = lower c := by
  have hall : ∀ k < 256, isHexDigit (UInt8.ofNat k) = true → ∃ v ∈ nibble (UInt8.ofNat k), v.toNat < 16 ∧
      hexDigits.getD v.toNat 0 = lower (UInt8.ofNat k) := by decide +kernel
  have hc := hall c.toNat c.toNat_lt
  rw [UInt8.ofNat_toNat] at hc
  obtain ⟨v, hv, hdigit⟩ := hc h
  exact ⟨v, hv, hdigit⟩

theorem nibble_other {c : UInt8} (h : isHexDigit c = false) : nibble c = none := by
  have hall : ∀ k < 256, isHexDigit (UInt8.ofNat k) = false → nibble (UInt8.ofNat k) = none := by decide +kernel
  have hc := hall c.toNat c.toNat_lt
  rw [UInt8.ofNat_toNat] at hc
  exact hc h

/-- The digits of a dump are hex digits in lower case. -/
theorem hexDump_digits (b : Bytes) : ∀ c ∈ hexDump b, isHexDigit c = true ∧ lower c = c := by
  have hall : ∀ k < 16, isHexDigit (hexDigits.getD k 0) = true ∧ lower (hexDigits.getD k 0) = hexDigits.getD k 0 := by
    decide +kernel
  induction b with
  | nil => nofun
  | cons x b ih =>
    intro c hc
    rw [hexDump_cons] at hc
    obtain rfl | hc := List.mem_cons.1 hc
    · exact hall _ (high_lt x)
    · obtain rfl | hc := List.mem_cons.1 hc
      · exact hall _ (low_lt x)
      · exact ih c hc

theorem hexDump_append (as bs : Bytes) : hexDump (as ++ bs) = hexDump as ++ hexDump bs := List.flatMap_append

/-- Two digits are the dump of the byte that they make. -/
theorem hexDump_pair {v w : UInt8} (hv : v.toNat < 16) (hw : w.toNat < 16) :
    hexDump [v <<< 4 ||| w] = [hexDigits.getD v.toNat 0, hexDigits.getD w.toNat 0] := by
  have hall : ∀ k < 16, ∀ l < 16, hexDump [UInt8.ofNat k <<< 4 ||| UInt8.ofNat l] =
      [hexDigits.getD k 0, hexDigits.getD l 0] := by decide +kernel
  have hpair := hall v.toNat hv w.toNat hw
  rwa [UInt8.ofNat_toNat, UInt8.ofNat_toNat] at hpair

/-! ## The loop -/

namespace Decoder

/-- What the loop has of the digits `ds`: the dump of the bytes so far and, if
they are odd in number, the last of them in hand. -/
structure Has (d : Decoder) (ds : Bytes) : Prop where
  even : d.high = true → hexDump d.out = ds
  odd : d.high = false → ∃ v : UInt8, v.toNat < 16 ∧ d.cur = v <<< 4 ∧ ds = hexDump d.out ++ [hexDigits.getD v.toNat 0]

theorem has_read {d : Decoder} {ds : Bytes} (h : d.Has ds) {v : UInt8} (hv : v.toNat < 16) :
    (d.read v).Has (ds ++ [hexDigits.getD v.toNat 0]) := by
  unfold read
  split
  · rename_i hhigh
    rw [← h.even hhigh]
    exact ⟨nofun, fun _ => ⟨v, hv, rfl, rfl⟩⟩
  · rename_i hlow
    obtain ⟨w, hw, hcur, rfl⟩ := h.odd (Bool.eq_false_iff.2 hlow)
    refine ⟨fun _ => ?_, nofun⟩
    rw [hcur, hexDump_append, hexDump_pair hw hv, List.append_assoc]
    exact rfl

theorem high_read (d : Decoder) (v : UInt8) : (d.read v).high = !d.high := by
  unfold read
  split
  · simp_all
  · simp_all

/-- The loop skips whitespace and reads all digits of a text without other characters. -/
theorem decode_digits {d : Decoder} {ds hex : Bytes} (h : d.Has ds) (hhex : ∀ c ∈ hex, isSpace c ∨ isHexDigit c) :
    ∃ d' : Decoder, d.decode hex = d'.finish ∧ d'.Has (ds ++ (unspaced hex).map lower) ∧
      (d'.high = d.high ↔ Even (hex.countP isHexDigit)) := by
  induction hex generalizing d ds with
  | nil => exact ⟨d, rfl, by simpa [unspaced] using h, by simp⟩
  | cons c hex ih =>
    have hrest : ∀ c ∈ hex, isSpace c ∨ isHexDigit c := fun c hc => hhex c (List.mem_cons_of_mem _ hc)
    by_cases hdigit : isHexDigit c = true
    · obtain ⟨v, hnibble, hv, hlower⟩ := nibble_digit hdigit
      have hspace := isSpace_digit hdigit
      obtain ⟨d', hdecode, hhas, hparity⟩ := ih (has_read h hv) hrest
      refine ⟨d', ?_, ?_, ?_⟩
      · simpa [decode, hspace, hnibble] using hdecode
      · have hunspaced : unspaced (c :: hex) = c :: unspaced hex := by simp [unspaced, hspace]
        rw [hunspaced, List.map_cons, ← hlower]
        rwa [List.append_assoc] at hhas
      · rw [List.countP_cons_of_pos hdigit, Nat.even_add_one, ← hparity, high_read]
        cases d'.high <;> cases d.high <;> decide
    · have hspace := (hhex c List.mem_cons_self).resolve_right hdigit
      obtain ⟨d', hdecode, hhas, hparity⟩ := ih h hrest
      refine ⟨d', ?_, ?_, ?_⟩
      · simpa [decode, hspace] using hdecode
      · simpa [unspaced, hspace] using hhas
      · rwa [List.countP_cons_of_neg hdigit]

/-- Another character ends the loop. -/
theorem decode_other {hex : Bytes} (h : ¬ ∀ c ∈ hex, isSpace c ∨ isHexDigit c) (d : Decoder) :
    ∃ e, d.decode hex = .error e := by
  induction hex generalizing d with
  | nil => exact absurd nofun h
  | cons c hex ih =>
    unfold decode
    split
    · rename_i hspace
      refine ih (fun hrest => h ?_) d
      intro c' hc'
      obtain rfl | hc' := List.mem_cons.1 hc'
      · exact .inl hspace
      · exact hrest c' hc'
    · split
      · exact ⟨_, rfl⟩
      · rename_i v hnibble
        refine ih (fun hrest => h ?_) (d.read v)
        intro c' hc'
        obtain rfl | hc' := List.mem_cons.1 hc'
        · right
          by_contra hdigit
          rw [nibble_other (Bool.eq_false_iff.2 hdigit)] at hnibble
          cases hnibble
        · exact hrest c' hc'

end Decoder

/-- A hex text is the dump of what it is decoded to, but for case and whitespace. -/
theorem hexToBytes_isHex {hex : Bytes} (h : IsHex hex) :
    ∃ b, hexToBytes hex = .ok b ∧ hexDump b = (unspaced hex).map lower := by
  have hstart : Decoder.Has {} [] := ⟨fun _ => rfl, nofun⟩
  obtain ⟨d, hdecode, hhas, hparity⟩ := Decoder.decode_digits hstart h.1
  have hhigh : d.high = true := hparity.2 h.2
  refine ⟨d.out, ?_, hhas.even hhigh⟩
  rw [hexToBytes, hdecode, Decoder.finish, if_pos hhigh]

theorem hexToBytes_refused {hex : Bytes} (h : ¬ IsHex hex) : ∃ e, hexToBytes hex = .error e := by
  by_cases hchars : ∀ c ∈ hex, isSpace c ∨ isHexDigit c
  · have hstart : Decoder.Has {} [] := ⟨fun _ => rfl, nofun⟩
    obtain ⟨d, hdecode, -, hparity⟩ := Decoder.decode_digits hstart hchars
    have hlow : ¬ d.high = true := fun hhigh => h ⟨hchars, hparity.1 hhigh⟩
    exact ⟨_, by rw [hexToBytes, hdecode, Decoder.finish, if_neg hlow]⟩
  · exact Decoder.decode_other hchars {}

theorem hexDump_isHex (b : Bytes) : IsHex (hexDump b) := by
  refine ⟨fun c hc => .inr (hexDump_digits b c hc).1, ?_⟩
  rw [List.countP_eq_length.2 fun c hc => (hexDump_digits b c hc).1, length_hexDump]
  exact even_two_mul b.length

theorem hexToBytes_hexDump (b : Bytes) : hexToBytes (hexDump b) = .ok b := by
  obtain ⟨b', hdecode, hdump⟩ := hexToBytes_isHex (hexDump_isHex b)
  have hunspaced : unspaced (hexDump b) = hexDump b := by
    apply List.filter_eq_self.2
    intro c hc
    rw [isSpace_digit (hexDump_digits b c hc).1]
    rfl
  rw [hunspaced, List.map_congr_left fun c hc => (hexDump_digits b c hc).2, List.map_id'] at hdump
  rw [hdecode, hexDump_injective hdump]

/-- What is dumped is decoded back, and what is decoded from a hex text is dumped
as that text in lower case and without whitespace; other texts are refused. -/
theorem hex_inverse : (∀ b, hexToBytes (hexDump b) = .ok b) ∧
    ∀ hex, (IsHex hex → ∃ b, hexToBytes hex = .ok b ∧ hexDump b = (unspaced hex).map lower) ∧
      (¬ IsHex hex → ∃ e, hexToBytes hex = .error e) :=
  ⟨hexToBytes_hexDump, fun _ => ⟨hexToBytes_isHex, hexToBytes_refused⟩⟩

example : hexToBytes (ascii "0a\nFf") = .ok [10, 255] := by decide +kernel

end BistColo.App.OuchDecode
