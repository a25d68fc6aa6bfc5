import BistColo.Core
/-!
# Instruments

`domain/instrument.hpp`: what is known of a symbol, the cache that finds it by
symbol and by book, and the price text of a scenario as a wire price. Signed overflow, which the source
leaves undefined, wraps here.
-/

open StreamKit

namespace BistColo.Domain

structure Instrument where
  symbol : Bytes
  orderBookId : UInt32 := 0
  priceDecimals : Int8 := 3
  partition : Int32 := 1
  basePrice : Int32 := 0
deriving DecidableEq

/-- The two maps of the cache, as what they find. -/
structure InstrumentCache where
  findBySymbol : Bytes → Option Instrument := fun _ => none
  findByBookId : UInt32 → Option Instrument := fun _ => none

namespace InstrumentCache

/-- Whether the symbol is new, and the cache with the instrument in both maps. -/
def put (c : InstrumentCache) (inst : Instrument) : Bool × InstrumentCache :=
  let inserted := (c.findBySymbol inst.symbol).isNone
  (inserted,
    { findBySymbol := Function.update c.findBySymbol inst.symbol (some inst)
      findByBookId := Function.update c.findByBookId inst.orderBookId (some inst) })

/-! ## Prices -/

def isPoint (b : UInt8) : Bool := b = 46 ∨ b = 44

def digit (b : UInt8) : Int64 := Int64.ofInt (b.toNat - 48)

/-- The digits before the point, and what follows them. -/
def wholePart (acc : Int64) : Bytes → Option (Int64 × Bytes)
  | [] => some (acc, [])
  | b :: rest =>
    if isPoint b then some (acc, b :: rest)
    else if isDigit b then wholePart (acc * 10 + digit b) rest
    else none

/-- At most `room` digits behind the point, and how many more there is room for. -/
def fracPart (acc : Int64) : Nat → Bytes → Int64 × Nat
  | 0, _ => (acc, 0)
  | room + 1, [] => (acc, room + 1)
  | room + 1, b :: rest => if isDigit b then fracPart (acc * 10 + digit b) room rest else (acc, room + 1)

def pow10 : Nat → Int64
  | 0 => 1
  | n + 1 => pow10 n * 10

/-- The sign and what follows it. -/
def sign : Bytes → Bool × Bytes
  | 45 :: rest => (true, rest)
  | 43 :: rest => (false, rest)
  | txt => (false, txt)

def toWirePrice (txt : Bytes) (decimals : Int8) : Int32 :=
  let (negative, txt) := sign txt
  match wholePart 0 txt with
  | none => 0
  | some (whole, rest) =>
    let room := decimals.toInt.toNat
    let (frac, left) := match rest with
      | [] => (0, room)
      | _ :: rest => fracPart 0 room rest
    let v := whole * pow10 room + frac * pow10 left
    (if negative then -v else v).toInt32

example : toWirePrice (ascii "6.200") 3 = 6200 := by decide +kernel

end InstrumentCache

end BistColo.Domain
