import BistColo.Mock.Orders
import BistColo.Ouch.Client
/-!
# What the client writes and the gateway reads

Writer and reader of the wire format were written apart from each other.
`codec_round_trips` puts them together for the whole format: every message
type is a bijection between its fields and the byte strings of its size, a
mass quote with any list of entries too, and the buffer `mass_quote` fills
reads back, at the gateway's offsets, as its header and its entries.
-/

open StreamKit

namespace BistColo.Mock

open Ouch Format Gateway

/-! ## Mass quotes -/

/-- A header with a list of entries behind it, whatever number the header states. -/
def massQuoteBytes (m : MassQuoteHeader × List QuoteEntry) : Bytes := m.1.bytes ++ QuoteEntry.format.putList m.2

/-- The header and the `k` entries behind it. -/
def massQuoteAt (k : Nat) (bs : Bytes) : MassQuoteHeader × List QuoteEntry :=
  (MassQuoteHeader.read bs, QuoteEntry.format.getList k (bs.drop 50))

theorem massQuoteAt_bytes (m : MassQuoteHeader × List QuoteEntry) : massQuoteAt m.2.length (massQuoteBytes m) = m := by
  have hheader : MassQuoteHeader.read (massQuoteBytes m) = m.1 := MassQuoteHeader.format.get_put m.1 _
  have hentries := QuoteEntry.format.getList_putList m.2 []
  rw [List.append_nil] at hentries
  rw [massQuoteAt, hheader, massQuoteBytes, List.drop_left' m.1.length_bytes, hentries]

theorem bytes_massQuoteAt {k : Nat} {bs : Bytes} (h : bs.length = 50 + 28 * k) : massQuoteBytes (massQuoteAt k bs) = bs := by
  have hentries : (bs.drop 50).length = QuoteEntry.format.width * k := by
    rw [List.length_drop, h]
    exact Nat.add_sub_cancel_left ..
  have htake : (bs.take 50).length = 50 := List.length_take_of_le (by omega)
  have hread : MassQuoteHeader.read (bs.take 50) = MassQuoteHeader.read bs :=
    MassQuoteHeader.format.get_take (h.symm ▸ Nat.le_add_right 50 _)
  have hput : (MassQuoteHeader.read (bs.take 50)).bytes = bs.take 50 := MassQuoteHeader.format.put_get _ htake
  rw [massQuoteBytes, massQuoteAt, QuoteEntry.format.putList_getList hentries, ← hread, hput, List.take_append_drop]

theorem massQuote_existsUnique {k : Nat} {bs : Bytes} (h : bs.length = 50 + 28 * k) :
    ∃! m : MassQuoteHeader × List QuoteEntry, m.2.length = k ∧ massQuoteBytes m = bs := by
  refine ⟨massQuoteAt k bs, ⟨QuoteEntry.format.length_getList k _, bytes_massQuoteAt h⟩, ?_⟩
  rintro m ⟨hk, rfl⟩
  rw [← hk, massQuoteAt_bytes]

/-- The gateway reads as many entries as the header states. -/
theorem readMassQuote_eq (bs : Bytes) :
    readMassQuote bs = massQuoteAt (MassQuoteHeader.read bs).noQuoteEntries.toNat bs := by
  simp only [readMassQuote, massQuoteAt, Format.getList, List.drop_drop]
  rfl

theorem blob_eq (args : MassQuoteArgs) (tok : OrderToken) :
    args.blob tok = massQuoteBytes (args.header tok, args.entries.map QuoteEntryArgs.entry) := by
  simp only [MassQuoteArgs.blob, massQuoteBytes, Format.putList, List.flatMap_map]
  rfl

theorem length_blob (args : MassQuoteArgs) (tok : OrderToken) :
    (args.blob tok).length = 50 + 28 * args.entries.length := by
  rw [blob_eq, massQuoteBytes, List.length_append, Format.length_putList, MassQuoteHeader.length_bytes, List.length_map]
  rfl

/-- The buffer of a mass quote reads back as its header and its entries. -/
theorem readMassQuote_blob {args : MassQuoteArgs} (h : args.entries.length < 2 ^ 16) (tok : OrderToken) :
    readMassQuote (args.blob tok) = (args.header tok, args.entries.map QuoteEntryArgs.entry) := by
  have hheader : MassQuoteHeader.read (args.blob tok) = args.header tok := MassQuoteHeader.format.get_put _ _
  have hcount : (args.header tok).noQuoteEntries.toNat = (args.entries.map QuoteEntryArgs.entry).length := by
    rw [List.length_map]
    exact UInt16.toNat_ofNat_of_lt' h
  rw [readMassQuote_eq, hheader, hcount, blob_eq]
  exact massQuoteAt_bytes (args.header tok, args.entries.map QuoteEntryArgs.entry)

/-! ## The whole format -/

/-- Each message type is written and read back without loss, and every byte
string of its size is one message; numbers are big-endian, prices and reject
codes in two's complement; and a mass quote of the client reads back at the
gateway. -/
theorem codec_round_trips :
    (RoundTrips EnterOrder.bytes EnterOrder.read 114 ∧ RoundTrips ReplaceOrder.bytes ReplaceOrder.read 122 ∧
      RoundTrips CancelOrder.bytes CancelOrder.read 15 ∧ RoundTrips CancelByOrderId.bytes CancelByOrderId.read 14 ∧
      RoundTrips MassQuoteHeader.bytes MassQuoteHeader.read 50 ∧ RoundTrips QuoteEntry.bytes QuoteEntry.read 28 ∧
      RoundTrips OrderAccepted.bytes OrderAccepted.read 137 ∧ RoundTrips OrderRejected.bytes OrderRejected.read 27 ∧
      RoundTrips OrderReplaced.bytes OrderReplaced.read 145 ∧ RoundTrips OrderCanceled.bytes OrderCanceled.read 37 ∧
      RoundTrips OrderExecuted.bytes OrderExecuted.read 68 ∧ RoundTrips MassQuoteAck.bytes MassQuoteAck.read 52 ∧
      RoundTrips MassQuoteRejection.bytes MassQuoteRejection.read 31) ∧
    ((∀ n, ofBE (beU16 n) = n.toNat) ∧ (∀ n, ofBE (beU32 n) = n.toNat) ∧ (∀ n, ofBE (beU64 n) = n.toNat) ∧
      ∀ n, (ofBE (beI32 n) : Int) = n.toInt % 2 ^ 32) ∧
    (∀ m, massQuoteAt m.2.length (massQuoteBytes m) = m) ∧
    (∀ k bs, bs.length = 50 + 28 * k →
      ∃! m : MassQuoteHeader × List QuoteEntry, m.2.length = k ∧ massQuoteBytes m = bs) ∧
    ∀ (args : MassQuoteArgs) (tok : OrderToken), 1 ≤ args.entries.length ∧ args.entries.length ≤ maxQuoteEntries →
      (args.blob tok).length = 50 + 28 * args.entries.length ∧
        readMassQuote (args.blob tok) = (args.header tok, args.entries.map QuoteEntryArgs.entry) := by
  refine ⟨⟨EnterOrder.format.roundTrips, ReplaceOrder.format.roundTrips, CancelOrder.format.roundTrips,
    CancelByOrderId.format.roundTrips, MassQuoteHeader.format.roundTrips, QuoteEntry.format.roundTrips,
    OrderAccepted.format.roundTrips, OrderRejected.format.roundTrips, OrderReplaced.format.roundTrips,
    OrderCanceled.format.roundTrips, OrderExecuted.format.roundTrips, MassQuoteAck.format.roundTrips,
    MassQuoteRejection.format.roundTrips⟩, ⟨ofBE_beU16, ofBE_beU32, ofBE_beU64, ofBE_beI32⟩, massQuoteAt_bytes, ?_, ?_⟩
  · intro k bs h
    exact massQuote_existsUnique h
  · intro args tok h
    have hfew : args.entries.length < 2 ^ 16 := Nat.lt_of_le_of_lt h.2 (by decide)
    exact ⟨length_blob args tok, readMassQuote_blob hfew tok⟩

/-- One entry. -/
def oneQuote : MassQuoteArgs where
  token := ascii "Q1"
  entries := [⟨70616, 6000, 10, 6010, 20⟩]

theorem codec_round_trips_oneQuote :
    (oneQuote.blob (OrderToken.ofText (ascii "Q1"))).length = 50 + 28 * 1 ∧
      readMassQuote (oneQuote.blob (OrderToken.ofText (ascii "Q1"))) =
        (oneQuote.header (OrderToken.ofText (ascii "Q1")), oneQuote.entries.map QuoteEntryArgs.entry) :=
  codec_round_trips.2.2.2.2 oneQuote (OrderToken.ofText (ascii "Q1")) (by decide)

end BistColo.Mock
