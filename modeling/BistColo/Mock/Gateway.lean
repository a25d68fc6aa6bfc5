import BistColo.Ouch.Framing
/-!
# The mock gateway's read loop

`OuchMockGateway::run_loop` of `mock/ouch_gateway.cpp`, as far as it takes
packets off the client's stream: which payloads it allocates and reads. The
stream is everything the client sends before it closes, so `read_n` succeeds
exactly when enough of it is left.
-/

open StreamKit

namespace BistColo.Mock

open Soup

/-- `read_n`: the next `n` bytes and what follows, or nothing if the peer
closes before. -/
def readN (stream : Bytes) (n : Nat) : Option (Bytes × Bytes) :=
  if stream.length < n then none else some (stream.take n, stream.drop n)

/-- `static_cast<std::size_t>(h.length.get()) - 1` -/
def payloadSize (h : Header) : UInt64 := UInt64.ofNat h.length.toNat - 1

/-- The longest `std::vector<std::uint8_t>`. -/
def maxVectorSize : Nat := 2 ^ 63 - 1

/-- A payload the loop allocates: the packet's header, the size asked for, and
the bytes read into it. There are none when the allocation throws or the peer
closes before the payload is complete. -/
structure PayloadRead where
  header : Header
  size : UInt64
  bytes : Option Bytes
deriving DecidableEq

/-- Header and payload of the next packet, and the stream behind it if the
loop gets that far. -/
def readPacket (stream : Bytes) : Option (PayloadRead × Option Bytes) :=
  match readN stream headerLen with
  | none => none
  | some (header, stream) =>
    let h := Header.read header
    let size := payloadSize h
    -- the vector's constructor and its `assign` throw a `std::length_error`
    if maxVectorSize < size.toNat then some (⟨h, size, none⟩, none)
    else
      match readN stream size.toNat with
      | none => some (⟨h, size, none⟩, none)
      | some (payload, stream) => some (⟨h, size, some payload⟩, some stream)

/-- The main loop, for at most `turns` turns while `running_` is set. -/
def mainLoop : Nat → Bytes → List PayloadRead
  | 0, _ => []
  | turns + 1, stream =>
    match readPacket stream with
    | none => []
    | some (r, none) => [r]
    | some (r, some stream) =>
      if r.header.packetType = Pkt.logoutRequest then [r] else r :: mainLoop turns stream

/-- What one turn records. -/
structure PayloadRead.OfPacket (r : PayloadRead) : Prop where
  size : r.size = payloadSize r.header
  bytes : ∀ bytes, r.bytes = some bytes → bytes.length = r.size.toNat

theorem readPacket_ofPacket {stream : Bytes} {r : PayloadRead} {rest : Option Bytes}
    (h : readPacket stream = some (r, rest)) : r.OfPacket := by
  unfold readPacket at h
  split at h
  · cases h
  · dsimp only at h
    split at h
    · cases h
      exact ⟨rfl, nofun⟩
    · split at h
      · cases h
        exact ⟨rfl, nofun⟩
      · rename_i hn
        cases h
        refine ⟨rfl, ?_⟩
        rintro bytes ⟨⟩
        unfold readN at hn
        split at hn
        · cases hn
        · rename_i hlen
          cases hn
          rw [List.length_take]
          dsimp only
          omega

theorem mainLoop_ofPacket (turns : Nat) (stream : Bytes) : ∀ r ∈ mainLoop turns stream, r.OfPacket := by
  induction turns generalizing stream with
  | zero => nofun
  | succ turns ih =>
    rw [mainLoop]
    split
    · nofun
    · rename_i hr
      simpa using readPacket_ofPacket hr
    · rename_i r rest hr
      split
      · simpa using readPacket_ofPacket hr
      · simpa using ⟨readPacket_ofPacket hr, ih rest⟩

end BistColo.Mock
