import BistColo.Mock.Serving
/-!
# Mass quotes

The mass quote branch of `handle_unsequenced_payload`. It loops over as many
entries as the header counts and compares the length of the payload with one of
them, so `quotes_safe_iff` says for which counts every entry is read inside the
payload. Over a run of quotes of the right length, `quotes_answered` gives the
answers entry by entry, and the statuses of each side of a book as a history
that its acknowledgements alone decide.
-/

open StreamKit

namespace BistColo.Mock

open Ouch

namespace Gateway

/-! ## What is read -/

def quoteCount (payload : Bytes) : Nat := (MassQuoteHeader.read payload).noQuoteEntries.toNat

/-- The offsets at which the loop reads an entry of 28 bytes. -/
def entryReads (payload : Bytes) : List Nat :=
  if payload.head? = some MsgType.massQuote ∧ ¬ payload.length < 50 + 28 then
    (List.range (quoteCount payload)).map fun i => 50 + 28 * i
  else []

/-- The entries of a payload, as far as the gateway looks at them. -/
def quotesOf (payload : Bytes) : List QuoteEntry :=
  (entryReads payload).map fun off => QuoteEntry.read (payload.drop off)

theorem handlePayload_massQuote (g : Gateway) {payload : Bytes} (h : payload.head? = some MsgType.massQuote) :
    g.handlePayload payload = g.quoteEntries (MassQuoteHeader.read payload).orderToken (quotesOf payload) := by
  have hbranch : g.handlePayload payload = if payload.length < 50 + 28 then ([], g) else g.massQuote payload := by
    unfold handlePayload
    rw [h]
    rfl
  rw [hbranch, quotesOf, entryReads]
  by_cases hshort : payload.length < 50 + 28
  · rw [if_pos hshort, if_neg (fun hlong => hlong.2 hshort)]
    rfl
  · rw [if_neg hshort, if_pos ⟨h, hshort⟩, List.map_map]
    rfl

def isAck : Reply → Bool
  | .massQuoteAck _ => true
  | _ => false

def isRejection : Reply → Bool
  | .massQuoteRejection _ => true
  | _ => false

/-- The count is at most five and fits the payload. -/
def CountFits (payload : Bytes) : Prop :=
  quoteCount payload ≤ maxQuoteEntries ∧ 50 + 28 * quoteCount payload ≤ payload.length

/-- Every entry is read inside the payload, and a count that does not fit is
ignored or rejected. -/
structure QuotesSafe (g : Gateway) (payload : Bytes) : Prop where
  inside : ∀ off ∈ entryReads payload, off + 28 ≤ payload.length
  refused : ¬ CountFits payload → ∀ r ∈ (g.handlePayload payload).1, isRejection r = true

theorem inside_iff {payload : Bytes} (h : payload.head? = some MsgType.massQuote) :
    (∀ off ∈ entryReads payload, off + 28 ≤ payload.length) ↔
      payload.length < 50 + 28 ∨ 50 + 28 * quoteCount payload ≤ payload.length := by
  unfold entryReads
  by_cases hshort : payload.length < 50 + 28
  · simp [hshort]
  · rw [if_pos ⟨h, hshort⟩]
    simp only [List.mem_map, List.mem_range, forall_exists_index, and_imp, forall_apply_eq_imp_iff₂, hshort, false_or]
    constructor
    · intro hread
      rcases Nat.eq_zero_or_pos (quoteCount payload) with hzero | hpos
      · omega
      · -- the last entry
        have hlast := hread (quoteCount payload - 1) (by omega)
        omega
    · intro hfits i hi
      omega

/-! ## One entry -/

/-- What an answer to a mass quote is about. -/
inductive About
  | ack (token : OrderToken) (book : UInt32) (side : UInt8)
  | rejection (token : OrderToken) (book : UInt32)
deriving DecidableEq

def about : Reply → Option About
  | .massQuoteAck m => some (.ack m.orderToken m.orderBookId m.side)
  | .massQuoteRejection m => some (.rejection m.orderToken m.orderBookId)
  | _ => none

/-- The answers that an entry is to get. -/
def entryAnswers (token : OrderToken) (e : QuoteEntry) : List (Option About) :=
  if crossed e then [some (.rejection token e.orderBookId)]
  else [some (.ack token e.orderBookId Side.buy.toWire), some (.ack token e.orderBookId Side.sell.toWire)]

theorem about_quoteEntry (g : Gateway) (token : OrderToken) (e : QuoteEntry) :
    (g.quoteEntry token e).1.map about = entryAnswers token e := by
  unfold quoteEntry entryAnswers
  split
  · rfl
  · rfl

theorem about_quoteEntries (g : Gateway) (token : OrderToken) (es : List QuoteEntry) :
    (g.quoteEntries token es).1.map about = es.flatMap (entryAnswers token) := by
  induction es generalizing g with
  | nil => rfl
  | cons e es ih => rw [quoteEntries, List.map_append, about_quoteEntry, ih, List.flatMap_cons]

/-- A rejected entry takes the time and changes nothing else. -/
theorem quoteEntry_crossed (g : Gateway) (token : OrderToken) {e : QuoteEntry} (h : crossed e = true) :
    (g.quoteEntry token e).2 = g.timestamp.2 := by
  rw [quoteEntry, if_pos h]

theorem counts_quoteEntry (g : Gateway) (token : OrderToken) (e : QuoteEntry) :
    (g.quoteEntry token e).1.countP isAck = (if crossed e then 0 else 2) ∧
      (g.quoteEntry token e).1.countP isRejection = if crossed e then 1 else 0 := by
  unfold quoteEntry
  split
  · exact ⟨rfl, rfl⟩
  · exact ⟨rfl, rfl⟩

theorem counts_quoteEntries (g : Gateway) (token : OrderToken) (es : List QuoteEntry) :
    (g.quoteEntries token es).1.countP isAck = 2 * (es.length - es.countP crossed) ∧
      (g.quoteEntries token es).1.countP isRejection = es.countP crossed := by
  induction es generalizing g with
  | nil => exact ⟨rfl, rfl⟩
  | cons e es ih =>
    obtain ⟨hacks, hrejections⟩ := g.counts_quoteEntry token e
    obtain ⟨ihacks, ihrejections⟩ := ih (g.quoteEntry token e).2
    have hle : es.countP crossed ≤ es.length := List.countP_le_length
    rw [quoteEntries, List.countP_append, List.countP_append, hacks, hrejections, ihacks, ihrejections, List.countP_cons,
      List.length_cons]
    constructor
    all_goals split
    all_goals omega

/-- A mass quote gets no acknowledgement if and only if all its entries are crossed. -/
theorem all_rejected_iff (g : Gateway) (token : OrderToken) (es : List QuoteEntry) :
    (∀ r ∈ (g.quoteEntries token es).1, isRejection r = true) ↔ ∀ e ∈ es, crossed e = true := by
  have hentry : ∀ (g : Gateway) (e : QuoteEntry),
      (∀ r ∈ (g.quoteEntry token e).1, isRejection r = true) ↔ crossed e = true := by
    intro g e
    unfold quoteEntry
    by_cases hcrossed : crossed e = true
    · rw [if_pos hcrossed]
      simp [isRejection, hcrossed]
    · rw [if_neg hcrossed]
      refine iff_of_false ?_ hcrossed
      intro hall
      exact absurd (hall _ List.mem_cons_self) Bool.false_ne_true
  induction es generalizing g with
  | nil => simp [quoteEntries]
  | cons e es ih =>
    rw [quoteEntries]
    simp only [List.mem_append, or_imp, forall_and, List.forall_mem_cons]
    exact and_congr (hentry g e) (ih _)

/-- The loop stays inside a payload that is too short for it or that the count
fits; it answers a count above five with rejections if all entries are crossed. -/
theorem quotes_safe_iff (g : Gateway) {payload : Bytes} (h : payload.head? = some MsgType.massQuote) :
    QuotesSafe g payload ↔
      payload.length < 50 + 28 ∨ (50 + 28 * quoteCount payload ≤ payload.length ∧
        (quoteCount payload ≤ maxQuoteEntries ∨ ∀ e ∈ (readMassQuote payload).2, crossed e = true)) := by
  have hquotes : ¬ payload.length < 50 + 28 → quotesOf payload = (readMassQuote payload).2 := by
    intro hlong
    rw [quotesOf, entryReads, if_pos ⟨h, hlong⟩, List.map_map]
    rfl
  have hanswers : (∀ r ∈ (g.handlePayload payload).1, isRejection r = true) ↔
      ∀ e ∈ quotesOf payload, crossed e = true := by
    rw [g.handlePayload_massQuote h]
    exact g.all_rejected_iff _ _
  constructor
  · rintro ⟨hinside, hrefused⟩
    by_cases hshort : payload.length < 50 + 28
    · exact .inl hshort
    · have hfits := ((inside_iff h).1 hinside).resolve_left hshort
      refine .inr ⟨hfits, ?_⟩
      by_cases hfew : quoteCount payload ≤ maxQuoteEntries
      · exact .inl hfew
      · right
        rw [← hquotes hshort]
        exact hanswers.1 (hrefused fun hboth => hfew hboth.1)
  · intro hwhen
    refine ⟨(inside_iff h).2 (hwhen.imp id And.left), ?_⟩
    intro hno
    rw [hanswers]
    by_cases hshort : payload.length < 50 + 28
    · rw [quotesOf, entryReads, if_neg (fun hlong => hlong.2 hshort)]
      nofun
    · obtain ⟨hfits, hfew | hall⟩ := hwhen.resolve_left hshort
      · exact absurd ⟨hfew, hfits⟩ hno
      · rw [hquotes hshort]
        exact hall

/-- A quote of a book. The header counts `n` entries, and those of `es` are behind it. -/
def quotePayload (n : UInt16) (es : List QuoteEntry) : Bytes :=
  massQuoteBytes (⟨MsgType.massQuote, OrderToken.ofText (ascii "Q1"), 1, zeros 16, zeros 16, n⟩, es)

def gatewayAtOne : Gateway := { wallNs := ⟨fun _ => 0, 0⟩ }

theorem quotes_safe_iff_one :
    QuotesSafe gatewayAtOne (quotePayload 1 [⟨70616, 6000, 6010, 10, 20⟩]) ↔
      (quotePayload 1 [⟨70616, 6000, 6010, 10, 20⟩]).length < 50 + 28 ∨
        (50 + 28 * quoteCount (quotePayload 1 [⟨70616, 6000, 6010, 10, 20⟩]) ≤
            (quotePayload 1 [⟨70616, 6000, 6010, 10, 20⟩]).length ∧
          (quoteCount (quotePayload 1 [⟨70616, 6000, 6010, 10, 20⟩]) ≤ maxQuoteEntries ∨
            ∀ e ∈ (readMassQuote (quotePayload 1 [⟨70616, 6000, 6010, 10, 20⟩])).2, crossed e = true)) :=
  quotes_safe_iff gatewayAtOne rfl

/-- A header that counts two entries, and one behind it: the second is read
behind the end of the payload. -/
theorem second_quote_outside :
    ¬ ∀ (g : Gateway) (payload : Bytes), payload.head? = some MsgType.massQuote → QuotesSafe g payload := by
  intro h
  have hinside := (h gatewayAtOne (quotePayload 2 [⟨70616, 6000, 6010, 10, 20⟩]) rfl).inside
  exact absurd (hinside 78 (by decide)) (by decide)

/-! ## The status of a side -/

/-- The statuses of a side of a book that is active or not, and what it is
after them: active from an Accept or Updated until the next Canceled. -/
inductive History : Bool → List MassQuoteStatus → Bool → Prop
  | nil (active : Bool) : History active [] active
  | accept {sts : List MassQuoteStatus} {after : Bool} : History true sts after → History false (.accept :: sts) after
  | updated {sts : List MassQuoteStatus} {after : Bool} : History true sts after → History true (.updated :: sts) after
  | canceled {active : Bool} {sts : List MassQuoteStatus} {after : Bool} :
    History false sts after → History active (.canceled :: sts) after

theorem History.append {a b c : Bool} {sts sts' : List MassQuoteStatus} (h : History a sts b) (h' : History b sts' c) :
    History a (sts ++ sts') c := by
  induction h with
  | nil => exact h'
  | accept _ ih => exact .accept (ih h')
  | updated _ ih => exact .updated (ih h')
  | canceled _ ih => exact .canceled (ih h')

/-- The status that an answer gives a side of a book. -/
def statusOf (key : UInt32 × UInt8) : Reply → Option UInt32
  | .massQuoteAck m => if (m.orderBookId, m.side) = key then some m.quoteStatus else none
  | _ => none

def statuses (key : UInt32 × UInt8) (rs : List Reply) : List UInt32 := rs.filterMap (statusOf key)

theorem statuses_singleton (key : UInt32 × UInt8) (r : Reply) : statuses key [r] = (statusOf key r).toList := by
  rw [statuses, List.filterMap_cons]
  cases statusOf key r <;> rfl

/-- The answers continue the history of the side. -/
def Continues (key : UInt32 × UInt8) (g : Gateway) (rs : List Reply) (g' : Gateway) : Prop :=
  ∃ sts, statuses key rs = sts.map MassQuoteStatus.toWire ∧ History (g.quoteActive key) sts (g'.quoteActive key)

theorem Continues.append {key : UInt32 × UInt8} {g g' g'' : Gateway} {rs rs' : List Reply} (h : Continues key g rs g')
    (h' : Continues key g' rs' g'') : Continues key g (rs ++ rs') g'' := by
  obtain ⟨sts, hsts, hhist⟩ := h
  obtain ⟨sts', hsts', hhist'⟩ := h'
  refine ⟨sts ++ sts', ?_, hhist.append hhist'⟩
  rw [statuses, List.filterMap_append, List.map_append, ← hsts, ← hsts']
  rfl

/-- Answers without a status of the side, and a step that leaves it as it is. -/
theorem Continues.same {key : UInt32 × UInt8} {g g' : Gateway} {rs : List Reply} (hrs : statuses key rs = [])
    (hkey : g'.quoteActive key = g.quoteActive key) : Continues key g rs g' := by
  refine ⟨[], hrs, ?_⟩
  rw [hkey]
  exact .nil _

theorem ackSide_continues (key : UInt32 × UInt8) (g : Gateway) (token : OrderToken) (book : UInt32) (side : UInt8)
    (size : UInt64) (price : Int32) (activeNow : Bool) :
    Continues key g [(g.ackSide token book side size price activeNow).1] (g.ackSide token book side size price activeNow).2 := by
  by_cases hkey : (book, side) = key
  · have hafter : (g.ackSide token book side size price activeNow).2.quoteActive key = activeNow := by
      rw [← hkey]
      exact Function.update_self ..
    refine ⟨[if activeNow then if g.quoteActive key then .updated else .accept else .canceled], ?_, ?_⟩
    · rw [statuses_singleton, ackSide]
      dsimp only [statusOf]
      rw [if_pos hkey, ← hkey]
      rfl
    · rw [hafter]
      cases activeNow with
      | false => exact .canceled (.nil _)
      | true =>
        cases g.quoteActive key with
        | false => exact .accept (.nil _)
        | true => exact .updated (.nil _)
  · refine .same ?_ (Function.update_of_ne (Ne.symm hkey) ..)
    rw [statuses_singleton, ackSide]
    dsimp only [statusOf]
    rw [if_neg hkey]
    rfl

theorem quoteEntry_continues (key : UInt32 × UInt8) (g : Gateway) (token : OrderToken) (e : QuoteEntry) :
    Continues key g (g.quoteEntry token e).1 (g.quoteEntry token e).2 := by
  unfold quoteEntry
  split
  · exact .same rfl rfl
  · exact (ackSide_continues key g token e.orderBookId Side.buy.toWire e.bidSize e.bidPrice (bidActive e)).append
      (ackSide_continues key _ token e.orderBookId Side.sell.toWire e.offerSize e.offerPrice (offerActive e))

theorem quoteEntries_continues (key : UInt32 × UInt8) (g : Gateway) (token : OrderToken) (es : List QuoteEntry) :
    Continues key g (g.quoteEntries token es).1 (g.quoteEntries token es).2 := by
  induction es generalizing g with
  | nil => exact .same rfl rfl
  | cons e es ih => exact (quoteEntry_continues key g token e).append (ih _)

/-! ## Runs of mass quotes -/

/-- A mass quote whose length is that of the entries it counts. -/
def WellSized (payload : Bytes) : Prop :=
  payload.head? = some MsgType.massQuote ∧ payload.length = 50 + 28 * quoteCount payload

/-- A gateway that was given payloads, and what it answered to each of them. -/
def answers : Gateway → List Bytes → List (List Reply)
  | _, [] => []
  | g, payload :: payloads => (g.handlePayload payload).1 :: answers (g.handlePayload payload).2 payloads

/-- One mass quote is answered entry by entry, the bid before the offer, with its
token and the book of the entry. -/
structure Answered (payload : Bytes) (rs : List Reply) : Prop where
  about : rs.map about =
    (readMassQuote payload).2.flatMap (entryAnswers (MassQuoteHeader.read payload).orderToken)
  acks : rs.countP isAck = 2 * (quoteCount payload - (readMassQuote payload).2.countP crossed)
  rejections : rs.countP isRejection = (readMassQuote payload).2.countP crossed

theorem quotesOf_wellSized {payload : Bytes} (h : WellSized payload) : quotesOf payload = (readMassQuote payload).2 := by
  have hread : (readMassQuote payload).2 =
      (List.range (quoteCount payload)).map fun i => QuoteEntry.read (payload.drop (50 + 28 * i)) := rfl
  rw [hread, quotesOf, entryReads]
  by_cases hshort : payload.length < 50 + 28
  · have hnone : quoteCount payload = 0 := by
      have hlen := h.2
      omega
    rw [if_neg (fun hlong => hlong.2 hshort), hnone, List.range_zero, List.map_nil, List.map_nil]
  · rw [if_pos ⟨h.1, hshort⟩, List.map_map]
    rfl

theorem handlePayload_answered (g : Gateway) {payload : Bytes} (h : WellSized payload) :
    Answered payload (g.handlePayload payload).1 := by
  have hlength : (readMassQuote payload).2.length = quoteCount payload := by
    simp [readMassQuote, quoteCount]
  rw [g.handlePayload_massQuote h.1, quotesOf_wellSized h]
  obtain ⟨hacks, hrejections⟩ := g.counts_quoteEntries (MassQuoteHeader.read payload).orderToken (readMassQuote payload).2
  rw [hlength] at hacks
  exact ⟨g.about_quoteEntries _ _, hacks, hrejections⟩

theorem answers_continue (key : UInt32 × UInt8) {payloads : List Bytes} (h : ∀ p ∈ payloads, WellSized p) (g : Gateway) :
    ∃ g', Continues key g (answers g payloads).flatten g' := by
  induction payloads generalizing g with
  | nil => exact ⟨g, .same rfl rfl⟩
  | cons p ps ih =>
    obtain ⟨g', hrest⟩ := ih (fun q hq => h q (List.mem_cons_of_mem p hq)) (g.handlePayload p).2
    refine ⟨g', ?_⟩
    rw [answers, List.flatten_cons]
    refine Continues.append ?_ hrest
    rw [g.handlePayload_massQuote (h p List.mem_cons_self).1]
    exact quoteEntries_continues ..

theorem answers_answered {payloads : List Bytes} (h : ∀ p ∈ payloads, WellSized p) (g : Gateway) :
    List.Forall₂ Answered payloads (answers g payloads) := by
  induction payloads generalizing g with
  | nil => exact .nil
  | cons p ps ih =>
    exact .cons (g.handlePayload_answered (h p List.mem_cons_self)) (ih (fun q hq => h q (List.mem_cons_of_mem p hq)) _)

/-- Every mass quote of a run gets two acknowledgements for each entry that is
not crossed and a rejection for each that is, in the order of the entries; the
statuses of a side of a book are a legal history over the whole run; and a
crossed entry changes nothing. -/
theorem quotes_answered {g : Gateway} (hfresh : ∀ key, g.quoteActive key = false) {payloads : List Bytes}
    (h : ∀ p ∈ payloads, WellSized p) :
    List.Forall₂ Answered payloads (answers g payloads) ∧
      (∀ key, ∃ sts after, statuses key (answers g payloads).flatten = sts.map MassQuoteStatus.toWire ∧
        History false sts after) ∧
      ∀ (g : Gateway) (token : OrderToken) (e : QuoteEntry), crossed e = true →
        (g.quoteEntry token e).2 = { g with wallNs := g.wallNs.monotonicNs.2 } := by
  refine ⟨answers_answered h g, ?_, fun g token e hcrossed => g.quoteEntry_crossed token hcrossed⟩
  intro key
  obtain ⟨g', sts, hsts, hhist⟩ := answers_continue key h g
  rw [hfresh] at hhist
  exact ⟨sts, _, hsts, hhist⟩

/-- A quote on both sides, and one of the same book that takes back the bid. -/
theorem quotes_answered_two :
    let quotes := [quotePayload 1 [⟨70616, 6000, 6010, 10, 20⟩],
      quotePayload 2 [⟨70616, 0, 6010, 0, 20⟩, ⟨70616, 6010, 6000, 10, 20⟩]]
    List.Forall₂ Answered quotes (answers gatewayAtOne quotes) :=
  (quotes_answered (fun _ => rfl) (by
    simp only [List.mem_cons, List.not_mem_nil, or_false, forall_eq_or_imp, forall_eq]
    exact ⟨⟨rfl, by decide⟩, rfl, by decide⟩)).1

end Gateway

end BistColo.Mock
