import BistColo.Core
import BistColo.StreamKit.Splitter
import Mathlib.Data.List.GetD
/-!
# SoupBinTCP framing

`net/soupbintcp.hpp`: the three byte header, the login request and the packet
types. `soup` says how the receiving side cuts a byte stream into packets: the
length field counts the type byte and the payload, so a packet takes two bytes
more. `soup_next_packet` reads back what `make_header` frames.
-/

open StreamKit

namespace BistColo.Soup

/-! ## Packet types and widths -/

namespace Pkt

def clientHeartbeat : UInt8 := 82   -- 'R'
def serverHeartbeat : UInt8 := 72   -- 'H'
def loginRequest : UInt8 := 76      -- 'L'
def loginAccepted : UInt8 := 65     -- 'A'
def loginRejected : UInt8 := 74     -- 'J'
def sequencedData : UInt8 := 83     -- 'S'
def unsequencedData : UInt8 := 85   -- 'U'
def logoutRequest : UInt8 := 79     -- 'O'
def endOfSession : UInt8 := 90      -- 'Z'
def debug : UInt8 := 43             -- '+'

end Pkt

def sessionLen : Nat := 10
def sequenceLen : Nat := 20

def heartbeatSendNs : UInt32 := 800000000
def heartbeatTimeoutNs : UInt32 := 2500000000

/-! ## Headers -/

structure Header where
  length : UInt16
  packetType : UInt8
deriving DecidableEq

/-- `sizeof(soup::Header)` -/
def headerLen : Nat := 3

/-- The length field is sixteen bits wide, so it wraps for an `innerLen` of 65535. -/
def makeHeader (packetType : UInt8) (innerLen : UInt16) : Header :=
  { length := innerLen + 1, packetType := packetType }

def Header.bytes (h : Header) : Bytes := beU16 h.length ++ [h.packetType]

/-- The header copied from the front of a buffer of at least three bytes. -/
def Header.read (buf : Bytes) : Header where
  length := UInt16.ofNat (ofBE (buf.take 2))
  packetType := buf.getD 2 0

@[simp] theorem Header.length_bytes (h : Header) : h.bytes.length = 3 := by
  simp [Header.bytes]

@[simp] theorem Header.read_bytes (h : Header) (buf : Bytes) : Header.read (h.bytes ++ buf) = h := by
  have hlen : (beU16 h.length).length = 2 := length_beU16 _
  have htake : (h.bytes ++ buf).take 2 = beU16 h.length := by
    rw [Header.bytes, List.append_assoc, ← hlen, List.take_left]
  have hget : (h.bytes ++ buf).getD 2 0 = h.packetType := by
    rw [Header.bytes, List.append_assoc, List.getD_append_right _ _ _ _ (by simp)]
    simp
  have hlen' : h.length.toNat < 256 ^ 2 := h.length.toNat_lt
  rw [Header.read, htake, hget, beU16, ofBE_toBE, Nat.mod_eq_of_lt hlen', UInt16.ofNat_toNat]

structure LoginRequest where
  header : Header
  username : Field 6
  password : Field 10
  requestedSession : Field 10
  requestedSequenceNumber : Field 20
deriving DecidableEq

def LoginRequest.bytes (r : LoginRequest) : Bytes :=
  r.header.bytes ++ r.username.bytes ++ r.password.bytes ++ r.requestedSession.bytes ++
    r.requestedSequenceNumber.bytes

theorem LoginRequest.length_bytes (r : LoginRequest) : r.bytes.length = 49 := by
  simp [LoginRequest.bytes]

/-! ## Packets of a stream -/

/-- A packet cut off the front of a stream: its length field, its type byte,
and the bytes it holds after the header. A length field of zero leaves no room
for the type byte, which is then the first byte behind the packet. -/
structure Frame where
  length : UInt16
  packetType : UInt8
  body : Bytes
deriving DecidableEq

/-- The bytes a packet takes up: the field does not count itself. -/
def Header.packetSize (h : Header) : Nat := h.length.toNat + 2

/-- The payload length a receiver computes from the length field. It is a
`std::size_t`, so the subtraction wraps for a packet of two bytes. -/
def Header.payloadLen (h : Header) : UInt64 := UInt64.ofNat h.packetSize - UInt64.ofNat headerLen

def Frame.payloadLen (f : Frame) : UInt64 := Header.payloadLen ⟨f.length, f.packetType⟩

/-- The first packet of a buffer, once all of it is there. -/
def Frame.next (buf : Bytes) : Option (Frame × Bytes) :=
  let h := Header.read buf
  if buf.length < headerLen ∨ buf.length < h.packetSize then none
  else some (⟨h.length, h.packetType, (buf.take h.packetSize).drop headerLen⟩, buf.drop h.packetSize)

theorem Header.read_append {xs : Bytes} (h : headerLen ≤ xs.length) (ys : Bytes) :
    Header.read (xs ++ ys) = Header.read xs := by
  have h3 : 3 ≤ xs.length := h
  rw [Header.read, Header.read, List.take_append_of_le_length (by omega), List.getD_append _ _ _ _ (by omega)]

theorem Frame.next_eq_some {xs r : Bytes} {f : Frame} : Frame.next xs = some (f, r) ↔
    headerLen ≤ xs.length ∧ (Header.read xs).packetSize ≤ xs.length ∧
      f = ⟨(Header.read xs).length, (Header.read xs).packetType,
        (xs.take (Header.read xs).packetSize).drop headerLen⟩ ∧
      r = xs.drop (Header.read xs).packetSize := by
  unfold Frame.next
  dsimp only
  split
  · rename_i h
    simp only [reduceCtorEq, false_iff]
    rintro ⟨h1, h2, -⟩
    omega
  · rename_i h
    simp only [not_or, Nat.not_lt] at h
    simp only [Option.some.injEq, Prod.mk.injEq, h, true_and, eq_comm]

/-- How a byte stream falls into packets. -/
def soup : Splitter UInt8 Frame where
  next := Frame.next
  shrinks := by
    intro xs b r h
    obtain ⟨h1, -, -, rfl⟩ := Frame.next_eq_some.1 h
    simp only [List.length_drop, Header.packetSize, headerLen] at *
    omega
  stable := by
    intro xs b r ys h
    obtain ⟨h1, h2, rfl, rfl⟩ := Frame.next_eq_some.1 h
    refine Frame.next_eq_some.2 ?_
    rw [Header.read_append h1]
    refine ⟨?_, ?_, ?_, ?_⟩
    · rw [List.length_append]
      omega
    · rw [List.length_append]
      omega
    · rw [List.take_append_of_le_length h2]
    · rw [List.drop_append_of_le_length h2]

@[simp] theorem soup_next (buf : Bytes) : soup.next buf = Frame.next buf := rfl

/-- What a peer frames with `make_header`: a type byte and at most 65534 bytes. -/
structure Packet where
  packetType : UInt8
  payload : Bytes
  fits : payload.length ≤ 65534
deriving DecidableEq

namespace Packet

def header (p : Packet) : Header := makeHeader p.packetType (UInt16.ofNat p.payload.length)

def encode (p : Packet) : Bytes := p.header.bytes ++ p.payload

/-- The packet as the receiving side cuts it off the stream. -/
def frame (p : Packet) : Frame := ⟨p.header.length, p.packetType, p.payload⟩

theorem length_toNat (p : Packet) : p.header.length.toNat = p.payload.length + 1 := by
  have := p.fits
  simp only [header, makeHeader, UInt16.toNat_add, UInt16.toNat_ofNat', UInt16.reduceToNat]
  omega

@[simp] theorem length_encode (p : Packet) : p.encode.length = p.payload.length + 3 := by
  simp [encode, Nat.add_comm]

end Packet

/-- The `LoginAccepted` struct of a gateway that assigns `session` and states
its next number in `sequenceNumber`. -/
def loginAccepted (session : Field 10) (sequenceNumber : Field 20) : Packet where
  packetType := Pkt.loginAccepted
  payload := session.bytes ++ sequenceNumber.bytes
  fits := by simp

/-- A framed packet is read back whatever follows it. -/
theorem soup_next_packet (p : Packet) (ys : Bytes) : soup.next (p.encode ++ ys) = some (p.frame, ys) := by
  have hread : Header.read (p.encode ++ ys) = p.header := by
    rw [Packet.encode, List.append_assoc, Header.read_bytes]
  have hsize : p.header.packetSize = p.encode.length := by
    rw [Header.packetSize, p.length_toNat, p.length_encode]
  refine Frame.next_eq_some.2 ?_
  rw [hread, hsize, List.take_left, List.drop_left]
  refine ⟨?_, ?_, ?_, rfl⟩
  · simp [headerLen]
    omega
  · simp
  · have hbody : p.encode.drop headerLen = p.payload := by
      rw [Packet.encode]
      exact List.drop_left' (by simp [headerLen])
    rw [hbody]
    rfl

end BistColo.Soup
