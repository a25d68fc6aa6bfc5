import BistColo.Ouch.Calls
import BistColo.Ouch.Outbound
/-!
# Order tokens on the wire

The registry compares the texts the caller gives, and the wire carries their
first fourteen bytes padded with spaces. `wire_tokens_unique_iff` says when
the tokens of a run are unique all the same: every text that reaches the
registry is either known to it or differs from the known ones as a token, and
the tokens it makes itself are new.
-/

open StreamKit

namespace BistColo.Ouch

open Domain

/-- The fourteen byte token field of a message that enters an order. -/
def OuchSession.Outgoing.tokenField : OuchSession.Outgoing → Option Bytes
  | .enterOrder m => some m.orderToken.bytes
  | .replaceOrder m => some m.replacementOrderToken.bytes
  | .massQuote blob => some ((blob.drop 1).take 14)
  | .cancel _ | .cancelById _ => none

/-- The tokens of the messages a client handed to its session. -/
def wireTokens (handed : List OuchSession.Outgoing) : List Bytes := handed.filterMap (·.tokenField)

@[simp] theorem wireTokens_append (l l' : List OuchSession.Outgoing) :
    wireTokens (l ++ l') = wireTokens l ++ wireTokens l' := List.filterMap_append ..

namespace OuchClient

/-- The token of a mass quote stands behind its type byte. -/
theorem blob_token (args : MassQuoteArgs) (tok : OrderToken) : ((args.blob tok).drop 1).take 14 = tok.bytes := by
  have hsplit : args.blob tok = [MsgType.massQuote] ++ (tok.bytes ++ ([args.category.toWire] ++
      (alphaSet 16 args.clientAccount).bytes ++ (alphaSet 16 args.exchangeInfo).bytes ++
      beU16 (UInt16.ofNat args.entries.length) ++ args.entries.flatMap fun a => a.entry.bytes)) := by
    simp [MassQuoteArgs.blob, MassQuoteArgs.header, MassQuoteHeader.bytes]
  rw [hsplit, List.singleton_append, List.drop_succ_cons, List.drop_zero, List.take_left' tok.size]

theorem tokenField_message (r : Request) (tok : OrderToken) :
    (r.message tok).tokenField = r.claim.map fun _ => tok.bytes := by
  cases r with
  | massQuote args => exact congrArg some (blob_token args tok)
  | place args => rfl
  | replace args => rfl
  | cancelByToken token => rfl
  | cancelByOrderId book side id => rfl

/-! ## The condition -/

/-- A text the registry takes looks on the wire like none it has taken. An
empty text stands for the token it makes itself. -/
def Clear (tokens : TokenRegistry) (t : Bytes) : Prop :=
  if t = [] then ∀ u ∈ tokens.seen, OrderToken.ofText u ≠ tokens.nextToken
  else t ∉ tokens.seen → ∀ u ∈ tokens.seen, OrderToken.ofText u ≠ OrderToken.ofText t

/-- What gets to the registry in this step is clear. -/
def TokenClear (c : OuchClient) : Op → Prop
  | .request now r => c.Reaches now r → ∀ t, r.claim = some t → Clear c.tokens t
  | .session _ | .outside _ _ => True

/-- The tokens on the wire are those the registry has seen, once each. -/
structure Unique (c : OuchClient) : Prop where
  wire : wireTokens c.handed = c.tokens.seen.map fun t => (OrderToken.ofText t).bytes
  nodup : (wireTokens c.handed).Nodup

/-! ## One step -/

/-- What a request can do to the registry and to what was handed over. -/
theorem step_request (c : OuchClient) (now : UInt64) (r : Request) :
    (¬ (c.Reaches now r ∧ c.Admits r) ∧ (c.call now r).2.handed = c.handed ∧ (c.call now r).2.tokens = c.tokens) ∨
      (c.Reaches now r ∧ c.Admits r ∧ (c.call now r).2.handed = c.handed ++ [r.message (c.claimed r).1] ∧
        (c.call now r).2.tokens = (c.claimed r).2) := by
  rcases c.call_cases now r with
    ⟨hillegal, e, he⟩ | ⟨-, hno, e, he⟩ | ⟨-, -, hstops, e, he⟩ | ⟨hreach, hadm, he⟩
  · exact .inl ⟨by simp [Reaches, hillegal], by rw [he], by rw [he]⟩
  · exact .inl ⟨by simp [Reaches, hno], by rw [he]; rfl, by rw [he]; rfl⟩
  · refine .inl ⟨?_, by rw [he]; rfl, by rw [he]; rfl⟩
    rintro ⟨hreach, hadm⟩
    exact hstops ⟨hreach.2.2, hadm⟩
  · exact .inr ⟨hreach, hadm, by rw [he]; rfl, by rw [he]; rfl⟩

theorem claimed_none {c : OuchClient} {r : Request} (h : r.claim = none) : (c.claimed r).2 = c.tokens := by
  rw [claimed, h]

/-- A clear text is taken as a new member. -/
theorem claimed_clear {c : OuchClient} {r : Request} {t : Bytes} (hr : r.claim = some t) (hclear : Clear c.tokens t)
    (hadm : c.Admits r) :
    ∃ u, (c.claimed r).1 = OrderToken.ofText u ∧ (c.claimed r).2.seen = c.tokens.seen ++ [u] ∧
      ∀ v ∈ c.tokens.seen, OrderToken.ofText v ≠ OrderToken.ofText u := by
  unfold claimed
  rw [hr]
  cases t with
  | nil =>
    rw [Clear, if_pos rfl] at hclear
    refine ⟨c.tokens.nextToken.view, (TokenRegistry.ofText_view _).symm, ?_, ?_⟩
    · have hnew : c.tokens.nextToken.view ∉ c.tokens.seen := fun h => hclear _ h (TokenRegistry.ofText_view _)
      rw [TokenRegistry.allocate, TokenRegistry.register_seen]
      exact if_neg hnew
    · rwa [TokenRegistry.ofText_view]
  | cons b t =>
    rw [Clear, if_neg (List.cons_ne_nil b t)] at hclear
    exact ⟨b :: t, rfl, rfl, hclear (hadm _ hr (List.cons_ne_nil b t))⟩

theorem Unique.request {c : OuchClient} (h : c.Unique) {now : UInt64} {r : Request}
    (hclear : c.TokenClear (.request now r)) : (c.call now r).2.Unique := by
  rcases c.step_request now r with ⟨-, hhanded, htokens⟩ | ⟨hreach, hadm, hhanded, htokens⟩
  · exact ⟨by rw [hhanded, htokens, h.wire], by rw [hhanded]; exact h.nodup⟩
  · have hwire : wireTokens (c.call now r).2.handed =
        wireTokens c.handed ++ (r.claim.map fun _ => (c.claimed r).1.bytes).toList := by
      rw [hhanded, wireTokens_append, ← tokenField_message]
      cases hm : (r.message (c.claimed r).1).tokenField <;> simp [wireTokens, hm]
    cases hr : r.claim with
    | none =>
      simp only [hr, Option.map_none, Option.toList_none, List.append_nil] at hwire
      exact ⟨by rw [hwire, htokens, claimed_none hr, h.wire], by rw [hwire]; exact h.nodup⟩
    | some t =>
      obtain ⟨u, htok, hseen, hnew⟩ := claimed_clear hr (hclear hreach t hr) hadm
      simp only [hr, Option.map_some, Option.toList_some, htok] at hwire
      refine ⟨by rw [hwire, htokens, hseen, h.wire, List.map_append, List.map_singleton], ?_⟩
      rw [hwire, List.nodup_append]
      refine ⟨h.nodup, List.nodup_singleton _, ?_⟩
      intro b hb b' hb' heq
      rw [h.wire] at hb
      obtain ⟨v, hv, rfl⟩ := List.mem_map.1 hb
      rw [List.mem_singleton] at hb'
      subst hb'
      exact hnew v hv (StreamKit.Field.ext heq)

/-- A text that is not clear is admitted, and repeats a token. -/
theorem Unique.repeats {c : OuchClient} (h : c.Unique) {now : UInt64} {r : Request}
    (hunclear : ¬ c.TokenClear (.request now r)) : ¬ (wireTokens (c.call now r).2.handed).Nodup := by
  simp only [TokenClear, Classical.not_imp, not_forall] at hunclear
  obtain ⟨hreach, t, hr, hnot⟩ := hunclear
  obtain ⟨hadm, u, hu, hsame⟩ : c.Admits r ∧ ∃ u ∈ c.tokens.seen, OrderToken.ofText u = (c.claimed r).1 := by
    unfold Admits claimed
    rw [hr]
    unfold Clear at hnot
    cases t with
    -- the registry gives the token, and it looks like one that was seen
    | nil =>
      rw [if_pos rfl] at hnot
      push Not at hnot
      refine ⟨?_, hnot⟩
      rintro t' ht' hne
      cases ht'
      exact absurd rfl hne
    -- the caller gives it: a new text, cut to the bytes of an old one
    | cons b t =>
      rw [if_neg (List.cons_ne_nil b t)] at hnot
      push Not at hnot
      refine ⟨?_, hnot.2⟩
      rintro t' ht' -
      cases ht'
      exact hnot.1
  intro hnodup
  rw [call_submits hreach hadm] at hnodup
  have hwire : wireTokens ((c.admitted now r).submit (r.message (c.claimed r).1)).2.handed =
      wireTokens c.handed ++ [(c.claimed r).1.bytes] := by
    have htok : (r.message (c.claimed r).1).tokenField = some (c.claimed r).1.bytes := by rw [tokenField_message, hr]; rfl
    simp [submit, admitted, wireTokens, htok]
  rw [hwire, List.nodup_append] at hnodup
  refine hnodup.2.2 (OrderToken.ofText u).bytes ?_ _ (List.mem_singleton_self _) (by rw [hsame])
  rw [h.wire]
  exact List.mem_map.2 ⟨u, hu, rfl⟩

/-- A step only adds to what was handed over. -/
theorem handed_step (c : OuchClient) (op : Op) : c.handed <+: (c.step op).handed := by
  cases op with
  | session op => exact List.prefix_rfl
  | outside session book => exact List.prefix_rfl
  | request now r =>
    rw [step]
    rcases c.step_request now r with ⟨-, h, -⟩ | ⟨-, -, h, -⟩
    · rw [h]
    · rw [h]
      exact List.prefix_append ..

/-! ## Runs -/

/-- In every run of a client with a new registry, the tokens of the messages
handed to the session are pairwise distinct if and only if each text that got
to the registry was clear. -/
theorem wire_tokens_unique_iff (session : OuchSession) (throttler : Throttler) (book : OrderBook) (tokenPrefix : Bytes)
    (ops : List Op) :
    (wireTokens (run step (create session throttler book tokenPrefix) ops).handed).Nodup ↔
      AllAlong step TokenClear (create session throttler book tokenPrefix) ops := by
  refine run_iff_allAlong Unique (fun c => (wireTokens c.handed).Nodup) ?_ ?_ ?_ (fun c h => h.nodup) ?_
  · intro c op h hclear
    cases op with
    | request now r => exact h.request hclear
    | session op => exact ⟨h.wire, h.nodup⟩
    | outside session book => exact ⟨h.wire, h.nodup⟩
  · intro c op h hunclear
    cases op with
    | request now r => exact h.repeats hunclear
    | session op => exact absurd trivial hunclear
    | outside session book => exact absurd trivial hunclear
  · intro c op h
    obtain ⟨l, hl⟩ := c.handed_step op
    rw [← hl, wireTokens_append, List.nodup_append] at h
    exact h.1
  · exact ⟨rfl, List.nodup_nil⟩

/-- A client of the mock exchange that may send ten requests a second. -/
def trading : OuchClient :=
  create (run OuchSession.step OuchSession.stalling [.beginLogin, .pollIo]) (Throttler.create 10 10) {} (ascii "C-")

/-- The texts `30` and `30 ` are two to the registry and one on the wire. -/
theorem padded_text_repeats :
    let ops := [Op.request 0 (.place { explicitToken := ascii "30" }),
      Op.request 0 (.place { explicitToken := ascii "30 " })]
    wireTokens (run step trading ops).handed =
      [(OrderToken.ofText (ascii "30")).bytes, (OrderToken.ofText (ascii "30")).bytes] ∧
    ¬ (wireTokens (run step trading ops).handed).Nodup := by
  decide +kernel

end OuchClient

end BistColo.Ouch
