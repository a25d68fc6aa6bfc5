import BistColo.Ouch.Client
import BistColo.StreamKit.Runs
/-!
# What the client's calls do

Every call goes through the same stages: its own check of the arguments, the
throttler, the check of the existing token, the token registry, the order book
and the session. `call_eq` says so for all five at once; after it, each stage
has a lemma that says what the call leaves behind when it ends there.
-/

open StreamKit

namespace BistColo.Ouch.OuchClient

open Domain
open OuchSession (Outgoing)

/-! ## The stages -/

namespace Request

/-- Refused before anything else happens. -/
def illegal : Request → Bool
  | .replace args => !isValidOpenCloseForReplace args.openClose.toWire
  | .massQuote args => decide (args.entries = [] ∨ maxQuoteEntries < args.entries.length)
  | .place _ | .cancelByToken _ | .cancelByOrderId .. => false

/-- Refused between the throttler and the registry. -/
def incomplete : Request → Bool
  | .replace args => decide (args.existingToken = [])
  | .place _ | .massQuote _ | .cancelByToken _ | .cancelByOrderId .. => false

/-- The text the caller gives for the new token, which may be empty. Cancels
take no token. -/
def claim : Request → Option Bytes
  | .place args => some args.explicitToken
  | .replace args => some args.newToken
  | .massQuote args => some args.token
  | .cancelByToken _ | .cancelByOrderId .. => none

/-- The error text for a token that is not new, without the token. -/
def taken : Request → String
  | .place _ => "token already used: "
  | .replace _ => "new_token already used: "
  | .massQuote _ => "MassQuote token already used: "
  | .cancelByToken _ | .cancelByOrderId .. => ""

/-- What the call does to the order book before it sends. -/
def booked (b : OrderBook) (tok : OrderToken) : Request → OrderBook
  | .place args => b.insert tok.view args.state
  | .replace args => b.setStatus args.existingToken .replacing
  | .cancelByToken token => b.setStatus token .canceling
  | .cancelByOrderId .. | .massQuote _ => b

def message (tok : OrderToken) : Request → Outgoing
  | .place args => .enterOrder (args.message tok)
  | .replace args => .replaceOrder (args.message tok)
  | .cancelByToken token => .cancel ⟨MsgType.cancelOrder, OrderToken.ofText token⟩
  | .cancelByOrderId book side id => .cancelById ⟨MsgType.cancelByOrderId, book, side.toWire, id⟩
  | .massQuote args => .massQuote (args.blob tok)

end Request

/-- The registry stage: a cancel passes it with nothing in its hands. -/
def claimFor (c : OuchClient) (r : Request) : Result OrderToken × OuchClient :=
  match r.claim with
  | none => (.ok (OrderToken.ofText []), c)
  | some explicit => c.claimToken explicit r.taken

def illegalError : Request → Error
  | .replace _ => makeError .validation
      ("OpenClose value illegal in Replace per Spec 4.1.2.2 " ++ "(allowed: ReplaceKeep=0, ReplaceDefault=4)")
  | _ => makeError .validation "MassQuote requires 1..5 entries"

def throttledError : Request → Error
  | .place _ => makeError .throttled "throttler bucket empty (>= rate)"
  | _ => makeError .throttled "throttler empty"

/-- The last stages: the order book, and the session. -/
def finish (c : OuchClient) (r : Request) (tok : OrderToken) : Result Unit × OuchClient :=
  (c.withBook (r.booked c.book tok)).submit (r.message tok)

/-- The stages of every call, in order. -/
def stages (c : OuchClient) (now : UInt64) (r : Request) : Result Unit × OuchClient :=
  if r.illegal then (.error (illegalError r), c)
  else
    match c.tryAcquire now with
    | (false, c) => (.error (throttledError r), c)
    | (true, c) =>
      if r.incomplete then (.error (makeError .validation "existing_token required"), c)
      else
        match c.claimFor r with
        | (.error e, c) => (.error e, c)
        | (.ok tok, c) => c.finish r tok

/-- A call returns its token only if the session took the message. -/
theorem done_returning (p : Result Unit × OuchClient) (tok : OrderToken) :
    done (match p with | (.error e, c) => (.error e, c) | (.ok (), c) => (.ok tok, c)) = p := by
  obtain ⟨res, c⟩ := p
  cases res <;> rfl

/-- All five calls at once. -/
theorem call_eq (c : OuchClient) (now : UInt64) (r : Request) : c.call now r = c.stages now r := by
  unfold stages
  cases r with
  | place args =>
    simp only [call, place, Request.illegal, Request.incomplete, claimFor, Request.claim, Request.taken]
    -- each stage ends the call with its error, or goes on with the same client
    rcases c.tryAcquire now with ⟨got, c⟩
    cases got with
    | false => rfl
    | true =>
      simp only [Bool.false_eq_true, if_false]
      rcases c.claimToken args.explicitToken "token already used: " with ⟨res, c⟩
      cases res with
      | error e => rfl
      | ok tok => exact done_returning _ tok
  | replace args =>
    simp only [call, replace, Request.illegal, Request.incomplete, claimFor, Request.claim, Request.taken]
    simp only [Bool.not_eq_true', decide_eq_true_eq]
    split
    · rfl
    · rcases c.tryAcquire now with ⟨got, c⟩
      cases got with
      | false => rfl
      | true =>
        dsimp only
        split
        · rfl
        · rcases c.claimToken args.newToken "new_token already used: " with ⟨res, c⟩
          cases res with
          | error e => rfl
          | ok next => exact done_returning _ next
  | cancelByToken token =>
    simp only [call, cancelByToken, Request.illegal, Request.incomplete, claimFor, Request.claim]
    rcases c.tryAcquire now with ⟨got, c⟩
    cases got <;> rfl
  | cancelByOrderId book side id =>
    simp only [call, cancelByOrderId, Request.illegal, Request.incomplete, claimFor, Request.claim]
    rcases c.tryAcquire now with ⟨got, c⟩
    cases got <;> rfl
  | massQuote args =>
    simp only [call, massQuote, Request.illegal, Request.incomplete, claimFor, Request.claim, Request.taken,
      decide_eq_true_eq]
    split
    · rfl
    · rcases c.tryAcquire now with ⟨got, c⟩
      cases got with
      | false => rfl
      | true =>
        simp only [Bool.false_eq_true, if_false]
        rcases c.claimToken args.token "MassQuote token already used: " with ⟨res, c⟩
        cases res with
        | error e => rfl
        | ok tok => exact done_returning _ tok

/-! ## Where a call ends -/

/-- The throttler lets the call through. -/
def acquires (c : OuchClient) (now : UInt64) : Bool := (c.throttler.tryAcquire now).1

/-- The call gets as far as the registry. -/
def Reaches (c : OuchClient) (now : UInt64) (r : Request) : Prop :=
  r.illegal = false ∧ c.acquires now = true ∧ r.incomplete = false

/-- The registry has not seen the text the caller gives, if he gives one. -/
def Admits (c : OuchClient) (r : Request) : Prop := ∀ t, r.claim = some t → t ≠ [] → t ∉ c.tokens.seen

/-- The registry after a call got its token. -/
def claimed (c : OuchClient) (r : Request) : OrderToken × TokenRegistry :=
  match r.claim with
  | none => (OrderToken.ofText [], c.tokens)
  | some [] => c.tokens.allocate
  | some t => (OrderToken.ofText t, { c.tokens with seen := c.tokens.seen ++ [t] })

theorem claimFor_admitted {c : OuchClient} {r : Request} (h : c.Admits r) :
    c.claimFor r = (.ok (c.claimed r).1, { c with tokens := (c.claimed r).2 }) := by
  unfold claimFor claimed
  cases hr : r.claim with
  | none => rfl
  | some t =>
    cases t with
    | nil => rfl
    | cons b t =>
      have hnew : b :: t ∉ c.tokens.seen := h _ hr (List.cons_ne_nil b t)
      simp [claimToken, TokenRegistry.registerExternal, TokenRegistry.register, hnew]

theorem claimFor_taken {c : OuchClient} {r : Request} (h : ¬ c.Admits r) :
    ∃ t, r.claim = some t ∧ c.claimFor r = (.error (makeError .validation (r.taken ++ text t)), c) := by
  simp only [Admits, not_forall, not_not] at h
  obtain ⟨t, hr, hne, hseen⟩ := h
  refine ⟨t, hr, ?_⟩
  simp [claimFor, hr, claimToken, hne, TokenRegistry.registerExternal, TokenRegistry.register, hseen]

theorem call_illegal {c : OuchClient} {r : Request} (now : UInt64) (h : r.illegal = true) :
    c.call now r = (.error (illegalError r), c) := by
  rw [call_eq, stages, if_pos h]

theorem call_throttled {c : OuchClient} {now : UInt64} {r : Request} (h : r.illegal = false)
    (hno : c.acquires now = false) : c.call now r = (.error (throttledError r), (c.tryAcquire now).2) := by
  have hacq : c.tryAcquire now = (false, (c.tryAcquire now).2) := Prod.ext hno rfl
  rw [call_eq, stages, if_neg (by simp [h]), hacq]

theorem call_incomplete {c : OuchClient} {now : UInt64} {r : Request} (h : r.illegal = false)
    (hyes : c.acquires now = true) (hinc : r.incomplete = true) :
    c.call now r = (.error (makeError .validation "existing_token required"), (c.tryAcquire now).2) := by
  have hacq : c.tryAcquire now = (true, (c.tryAcquire now).2) := Prod.ext hyes rfl
  rw [call_eq, stages, if_neg (by simp [h]), hacq]
  dsimp only
  rw [if_pos hinc]

/-- A call that gets to the registry with a text that is not new returns so. -/
theorem call_taken {c : OuchClient} {now : UInt64} {r : Request} (h : c.Reaches now r) (hadm : ¬ c.Admits r) :
    ∃ t, r.claim = some t ∧
      c.call now r = (.error (makeError .validation (r.taken ++ text t)), (c.tryAcquire now).2) := by
  have hacq : c.tryAcquire now = (true, (c.tryAcquire now).2) := Prod.ext h.2.1 rfl
  obtain ⟨t, ht, he⟩ := claimFor_taken (c := (c.tryAcquire now).2) (r := r) hadm
  refine ⟨t, ht, ?_⟩
  rw [call_eq, stages, if_neg (by simp [h.1]), hacq]
  dsimp only
  rw [if_neg (by simp [h.2.2]), he]

/-- The throttler counted the call, but no message comes of it. -/
theorem call_refused {c : OuchClient} {now : UInt64} {r : Request} (h : r.illegal = false)
    (hyes : c.acquires now = true) (hbad : ¬ (r.incomplete = false ∧ c.Admits r)) :
    ∃ e, c.call now r = (.error e, (c.tryAcquire now).2) := by
  by_cases hinc : r.incomplete = true
  · exact ⟨_, call_incomplete h hyes hinc⟩
  · rw [Bool.not_eq_true] at hinc
    have hreach : c.Reaches now r := ⟨h, hyes, hinc⟩
    obtain ⟨t, -, he⟩ := call_taken hreach fun hadm => hbad ⟨hinc, hadm⟩
    exact ⟨_, he⟩

/-- The client as a call hands its message to the session. -/
def admitted (c : OuchClient) (now : UInt64) (r : Request) : OuchClient :=
  { c with
    throttler := (c.throttler.tryAcquire now).2
    tokens := (c.claimed r).2
    book := r.booked c.book (c.claimed r).1 }

theorem call_submits {c : OuchClient} {now : UInt64} {r : Request} (h : c.Reaches now r) (hadm : c.Admits r) :
    c.call now r = (c.admitted now r).submit (r.message (c.claimed r).1) := by
  have hacq : c.tryAcquire now = (true, (c.tryAcquire now).2) := Prod.ext h.2.1 rfl
  have hclaim := claimFor_admitted (c := (c.tryAcquire now).2) (r := r) hadm
  rw [call_eq, stages, if_neg (by simp [h.1]), hacq]
  dsimp only
  rw [if_neg (by simp [h.2.2]), hclaim]
  rfl

/-- Where a call ends: before the throttler, in it, between it and the session,
or with its message handed to the session. -/
theorem call_cases (c : OuchClient) (now : UInt64) (r : Request) :
    (r.illegal = true ∧ ∃ e, c.call now r = (.error e, c)) ∨
    (r.illegal = false ∧ c.acquires now = false ∧ ∃ e, c.call now r = (.error e, (c.tryAcquire now).2)) ∨
    (r.illegal = false ∧ c.acquires now = true ∧ ¬ (r.incomplete = false ∧ c.Admits r) ∧
      ∃ e, c.call now r = (.error e, (c.tryAcquire now).2)) ∨
    (c.Reaches now r ∧ c.Admits r ∧
      c.call now r = (c.admitted now r).submit (r.message (c.claimed r).1)) := by
  by_cases hlegal : r.illegal = true
  · exact .inl ⟨hlegal, _, call_illegal now hlegal⟩
  rw [Bool.not_eq_true] at hlegal
  by_cases hyes : c.acquires now = true
  · by_cases hgoes : r.incomplete = false ∧ c.Admits r
    · have hreach : c.Reaches now r := ⟨hlegal, hyes, hgoes.1⟩
      exact .inr (.inr (.inr ⟨hreach, hgoes.2, call_submits hreach hgoes.2⟩))
    · exact .inr (.inr (.inl ⟨hlegal, hyes, hgoes, call_refused hlegal hyes hgoes⟩))
  · rw [Bool.not_eq_true] at hyes
    exact .inr (.inl ⟨hlegal, hyes, _, call_throttled hlegal hyes⟩)

/-! ## Runs -/

/-- What happens to a client: a request, an operation of its session, and what
others do to the session and the order book. The handlers of inbound messages
write the book; a reconnect replaces the session. -/
inductive Op
  | request (now : UInt64) (r : Request)
  | session (op : OuchSession.Op)
  | outside (session : OuchSession) (book : OrderBook)

def step (c : OuchClient) : Op → OuchClient
  | .request now r => (c.call now r).2
  | .session op => { c with session := c.session.step op }
  | .outside session book => { c with session, book }

/-- A client with a new registry. -/
def create (session : OuchSession) (throttler : Throttler) (book : OrderBook) (tokenPrefix : Bytes) : OuchClient :=
  { session, throttler, book, tokens := { tokenPrefix } }

end BistColo.Ouch.OuchClient
