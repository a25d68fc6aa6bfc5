import BistColo.Ouch.Messages
/-!
# One padding rule

The loops that write and read text fields: `alpha_set`, `alpha_get`, `token_set`
and `token_get` of `ouch/codec.hpp`, `pad` of the session, and the constructor
and the view of `OrderToken`. All writers come to `Field.pad` with spaces, and all
readers to `Field.trim`.
-/

open StreamKit

namespace BistColo

/-! ## The loops -/

namespace OrderToken

/-- `OrderToken()`: zeros, and then all spaces. -/
def blank : OrderToken := Field.assign (fun _ => 32) 0 14 (Field.pad 0 14 [])

/-- `OrderToken(data, len)` -/
def ofData (data : Bytes) (len : Nat) : OrderToken :=
  let n := if len < 14 then len else 14
  Field.assign (fun i => data.getD i 0) 0 n blank

/-- `OrderToken(s)` -/
def ofString (s : Bytes) : OrderToken := ofData s s.length

/-- `view()` -/
def printable (tok : OrderToken) : Bytes := tok.bytes.take (Field.dropBack 32 tok.bytes 14)

end OrderToken

namespace Ouch

variable {n : Nat}

namespace Codec

def alphaSet (dst : Field n) (src : Bytes) : Field n :=
  let k := min src.length n
  Field.assign (fun _ => 32) k n (Field.assign (fun i => src.getD i 0) 0 k dst)

def alphaGet (src : Field n) : Bytes := src.bytes.take (Field.dropBack 32 src.bytes n)

def tokenSet (dst : Field 14) (tok : OrderToken) : Field 14 := Field.assign (fun i => tok.bytes.getD i 0) 0 14 dst

def tokenGet (src : Field 14) : OrderToken := Field.assign (fun i => src.bytes.getD i 0) 0 14 OrderToken.blank

end Codec

/-- `OuchSession::pad` -/
def OuchSession.pad (dst : Field n) (src : Bytes) : Field n :=
  let k := min src.length n
  Field.assign (fun _ => 32) k n (Field.assign (fun i => src.getD i 0) 0 k dst)

/-! ## What the loops come to -/

theorem alphaSet_eq (dst : Field n) (src : Bytes) : Codec.alphaSet dst src = alphaSet n src := Field.fill_copy 32 src dst

theorem pad_eq (dst : Field n) (src : Bytes) : OuchSession.pad dst src = alphaSet n src := Field.fill_copy 32 src dst

theorem alphaGet_eq (src : Field n) : Codec.alphaGet src = src.trim 32 := Field.take_dropBack_bytes 32 src

theorem printable_eq (tok : OrderToken) : tok.printable = tok.view := Field.take_dropBack_bytes 32 tok

theorem tokenSet_eq (dst : Field 14) (tok : OrderToken) : Codec.tokenSet dst tok = tok := Field.copy_bytes tok dst

theorem tokenGet_eq (src : Field 14) : Codec.tokenGet src = src := Field.copy_bytes src OrderToken.blank

theorem ofString_eq (s : Bytes) : OrderToken.ofString s = OrderToken.ofText s := by
  have hmin : (if s.length < 14 then s.length else 14) = min s.length 14 := by
    rw [Nat.min_def]
    split <;> split <;> omega
  unfold OrderToken.ofString OrderToken.ofData
  rw [hmin]
  exact Field.copy_fill 32 s (Field.pad 0 14 [])

/-! ## The rule -/

structure OnePaddingRule : Prop where
  pad : ∀ {n : Nat} (dst dst' : Field n) (s : Bytes), Codec.alphaSet dst s = OuchSession.pad dst' s
  token : ∀ (dst dst' : Field 14) (s : Bytes), Codec.alphaSet dst s = Codec.tokenSet dst' (OrderToken.ofString s)
  get_set : ∀ {n : Nat} (dst : Field n) (s : Bytes),
    Codec.alphaGet (Codec.alphaSet dst s) = (s.take n).rdropWhile (· = 32)
  set_get : ∀ {n : Nat} (dst f : Field n), Codec.alphaSet dst (Codec.alphaGet f) = f
  view : ∀ (dst : Field 14) (tok : OrderToken), tok.printable = Codec.alphaGet (Codec.tokenSet dst tok)
  view_get : ∀ f : Field 14, (Codec.tokenGet f).printable = Codec.alphaGet f
  same : ∀ {n : Nat} (dst dst' : Field n) (s t : Bytes), Codec.alphaSet dst s = Codec.alphaSet dst' t ↔
    (s.take n).rdropWhile (· = 32) = (t.take n).rdropWhile (· = 32)

/-- All writers fill a field alike, all readers read it alike, and what they lose is
the trailing spaces of the first `n` bytes and all behind them. -/
theorem one_padding_rule : OnePaddingRule where
  pad dst dst' s := (alphaSet_eq dst s).trans (pad_eq dst' s).symm
  token dst dst' s := by
    rw [alphaSet_eq, tokenSet_eq, ofString_eq]
    exact rfl
  get_set dst s := by
    rw [alphaGet_eq, alphaSet_eq]
    exact Field.trim_pad 32 s
  set_get dst f := by
    rw [alphaSet_eq, alphaGet_eq]
    exact Field.pad_trim 32 f
  view dst tok := by
    rw [tokenSet_eq]
    exact rfl
  view_get f := by
    rw [tokenGet_eq]
    exact rfl
  same dst dst' s t := by
    rw [alphaSet_eq, alphaSet_eq]
    exact Field.pad_eq_iff 32 s t

example : (OrderToken.ofString (ascii "A ")).printable = ascii "A" := by decide +kernel

end Ouch

end BistColo
